import Mathlib.Data.List.Nodup
import NeoZygisk.Injector.JniHooks

/-!
# The generated hooks

`gen_jni_hooks.py` turns a list of parameters into a native method: its signature for the runtime, its C++
parameters, and a body that gives the modules references to the parameters and passes all of them on to the original
implementation. The three are written from one list, but by different rules, and the parameters go by their names.

`readSignature_jni` says that the signature describes the C++ parameters, and `runBody` what a body does: in whatever
place of the list a parameter stands, the original gets it there, as the modules left it. `hooked_calls_original`
joins this with the table that `hook_jni_methods` installs, and says all that a call of a hooked method does.
-/

set_option autoImplicit false

namespace NeoZygisk.Injector.JniGenerator

open NeoZygisk.Injector.JniHooks
open NeoZygisk.Lib

universe u v

/-! ## Types -/

inductive JType where
  | jint
  | jboolean
  | jlong
  | jstring
  | array (type : JType)
  deriving DecidableEq, Repr

def primitives : List String := ["jint", "jboolean", "jlong"]

/-- The C++ type. -/
def JType.cpp : JType → String
  | .jint => "jint"
  | .jboolean => "jboolean"
  | .jlong => "jlong"
  | .jstring => "jstring"
  | .array type => if primitives.contains type.cpp then type.cpp ++ "Array" else "jobjectArray"

def stringClass : List Char := "java/lang/String".toList

def JType.jni : JType → List Char
  | .jint => ['I']
  | .jboolean => ['Z']
  | .jlong => ['J']
  | .jstring => 'L' :: stringClass ++ [';']
  | .array type => '[' :: type.jni

/-- What a method returns; `none` is `void`. -/
structure Return where
  value : String
  type : Option JType
  deriving DecidableEq, Repr

def Return.cpp (ret : Return) : String := ret.type.elim "void" JType.cpp

def Return.jni (ret : Return) : List Char := ret.type.elim ['V'] JType.jni

structure Argument where
  name : String
  type : JType
  setArg : Bool
  deriving DecidableEq, Repr

/-- An argument nobody cares about. `cnt` is the number of those before it. -/
def anon (cnt : Nat) (type : JType) : Argument := ⟨"_" ++ toString cnt, type, false⟩

/-! ## Methods -/

/-- `ForkAndSpec`, `SpecApp` and `ForkServer`. -/
inductive MethodClass where
  | forkAndSpec
  | specApp
  | forkServer
  deriving DecidableEq, Repr

def MethodClass.baseName : MethodClass → String
  | .forkAndSpec => "nativeForkAndSpecialize"
  | .specApp => "nativeSpecializeAppProcess"
  | .forkServer => "nativeForkSystemServer"

def MethodClass.ret : MethodClass → Return
  | .forkAndSpec => ⟨"ctx.pid", some .jint⟩
  | .specApp => ⟨"", none⟩
  | .forkServer => ⟨"ctx.pid", some .jint⟩

/-- The names in `init_args`. -/
def MethodClass.initNames : MethodClass → List String
  | .forkAndSpec | .specApp =>
      ["uid", "gid", "gids", "runtime_flags", "rlimits", "mount_external", "se_info", "nice_name", "instruction_set",
        "app_data_dir"]
  | .forkServer => ["uid", "gid", "gids", "runtime_flags", "permitted_capabilities", "effective_capabilities"]

/-- A structure of references and of pointers that may be null. The constructor takes the references in order. -/
structure ArgsStruct where
  references : List (String × String)
  pointers : List (String × String)

/-- `AppSpecializeArgs_v5`. -/
def appSpecializeArgs : ArgsStruct where
  references :=
    [("uid", "jint"), ("gid", "jint"), ("gids", "jintArray"), ("runtime_flags", "jint"), ("rlimits", "jobjectArray"),
      ("mount_external", "jint"), ("se_info", "jstring"), ("nice_name", "jstring"), ("instruction_set", "jstring"),
      ("app_data_dir", "jstring")]
  pointers :=
    [("fds_to_ignore", "jintArray"), ("is_child_zygote", "jboolean"), ("is_top_app", "jboolean"),
      ("pkg_data_info_list", "jobjectArray"), ("whitelisted_data_info_list", "jobjectArray"),
      ("mount_data_dirs", "jboolean"), ("mount_storage_dirs", "jboolean"), ("mount_sysprop_overrides", "jboolean")]

/-- `ServerSpecializeArgs_v1`. -/
def serverSpecializeArgs : ArgsStruct where
  references :=
    [("uid", "jint"), ("gid", "jint"), ("gids", "jintArray"), ("runtime_flags", "jint"),
      ("permitted_capabilities", "jlong"), ("effective_capabilities", "jlong")]
  pointers := []

def MethodClass.argsStruct : MethodClass → ArgsStruct
  | .forkAndSpec | .specApp => appSpecializeArgs
  | .forkServer => serverSpecializeArgs

structure Method where
  cls : MethodClass
  args : List Argument

def Method.names (m : Method) : List String := m.args.map Argument.name

def Method.jni (m : Method) : List Char :=
  '(' :: m.args.flatMap (fun a => a.type.jni) ++ ')' :: m.cls.ret.jni

/-- The C++ parameters behind `env` and `clazz`. -/
def Method.cpp (m : Method) : List String := m.args.map fun a => a.type.cpp

/-- A statement of a generated body. -/
inductive Statement where
  /-- The declaration of `args`. -/
  | initArgs (names : List String)
  /-- `args.name = &name;`. -/
  | setArg (name : String)
  /-- `ctx.…_pre();`, behind the declaration of `ctx`. -/
  | pre (method : String)
  /-- The call of the function that the table has at the index. -/
  | orig (index : Nat) (names : List String)
  | post (method : String)
  | ret (value : String)
  deriving DecidableEq, Repr

/-- `body`, and the `return` behind it. -/
def Method.body (m : Method) (index : Nat) : List Statement :=
  .initArgs m.cls.initNames :: (m.args.filter Argument.setArg).map (fun a => .setArg a.name) ++
    [.pre m.cls.baseName, .orig index m.names, .post m.cls.baseName] ++
    if m.cls.ret.value = "" then [] else [.ret m.cls.ret.value]

/-! ## What a body does -/

inductive Event (V : Type v) where
  | pre (method : String)
  | orig (index : Nat) (values : List V)
  | post (method : String)
  | ret (value : String)

/-- A call of a generated function: its parameters, the variables that the fields of `args` refer to, and what it has
done. -/
structure Running (V : Type v) where
  frame : List (String × V)
  fields : List (String × String)
  events : List (Event V)

section Run

variable {V : Type v}

def setVar (name : String) (value : V) (frame : List (String × V)) : List (String × V) :=
  frame.map fun b => if b.1 = name then (b.1, value) else b

/-- What the modules leave in the variables that the fields refer to. `edit` is what they write to a field. -/
def applyEdits (edit : String → Option V) (fields : List (String × String)) (frame : List (String × V)) :
    List (String × V) :=
  fields.foldl (fun frame field => (edit field.1).elim frame fun value => setVar field.2 value frame) frame

/-- A statement; `none` if the compiler does not know a name. -/
def Statement.exec (struct : ArgsStruct) (edit : String → Option V) (r : Running V) : Statement → Option (Running V)
  | .initArgs names =>
      if names.length = struct.references.length ∧ ∀ name ∈ names, (r.frame.lookup name).isSome then
        some { r with fields := (struct.references.map Prod.fst).zip names }
      else none
  | .setArg name =>
      if (struct.pointers.lookup name).isSome ∧ (r.frame.lookup name).isSome then
        some { r with fields := r.fields ++ [(name, name)] }
      else none
  | .pre method => some { r with frame := applyEdits edit r.fields r.frame, events := r.events ++ [.pre method] }
  | .orig index names =>
      (names.mapM fun name => r.frame.lookup name).map fun values =>
        { r with events := r.events ++ [.orig index values] }
  | .post method => some { r with events := r.events ++ [.post method] }
  | .ret value => some { r with events := r.events ++ [.ret value] }

def execAll (struct : ArgsStruct) (edit : String → Option V) : List Statement → Running V → Option (Running V)
  | [], r => some r
  | s :: rest, r => (s.exec struct edit r).bind (execAll struct edit rest)

/-- The body of a method, called with the given values. -/
def Method.run (m : Method) (index : Nat) (edit : String → Option V) (values : List V) : Option (List (Event V)) :=
  (execAll m.cls.argsStruct edit (m.body index) ⟨m.names.zip values, [], []⟩).map Running.events

/-- The parameters that the modules have a reference to. -/
def Method.exposed (m : Method) : List String :=
  m.cls.initNames ++ (m.args.filter Argument.setArg).map Argument.name

/-- The parameters as the original is to get them. -/
def Method.edited (m : Method) (edit : String → Option V) (values : List V) : List V :=
  List.zipWith (fun a value => if a.name ∈ m.exposed then (edit a.name).getD value else value) m.args values

end Run

/-- What a compiler checks of a method and its body: no two parameters have one name, what is passed to the
constructor has the types of its references in order, and a pointer is of its field's type. -/
structure Method.Compiles (m : Method) : Prop where
  nodup : m.names.Nodup
  names : m.cls.initNames = m.cls.argsStruct.references.map Prod.fst
  references : ∀ r ∈ m.cls.argsStruct.references, ∃ a ∈ m.args, a.name = r.1 ∧ a.type.cpp = r.2
  pointers : ∀ a ∈ m.args, a.setArg = true → (a.name, a.type.cpp) ∈ m.cls.argsStruct.pointers

instance (m : Method) : Decidable m.Compiles :=
  decidable_of_iff
    (m.names.Nodup ∧ m.cls.initNames = m.cls.argsStruct.references.map Prod.fst ∧
      (∀ r ∈ m.cls.argsStruct.references, ∃ a ∈ m.args, a.name = r.1 ∧ a.type.cpp = r.2) ∧
      ∀ a ∈ m.args, a.setArg = true → (a.name, a.type.cpp) ∈ m.cls.argsStruct.pointers)
    ⟨fun h => ⟨h.1, h.2.1, h.2.2.1, h.2.2.2⟩, fun h => ⟨h.nodup, h.names, h.references, h.pointers⟩⟩

/-! ## Running a body -/

section Body

variable {V : Type v} {m : Method} {struct : ArgsStruct} {edit : String → Option V} {frame : List (String × V)}

theorem lookup_of_mem {b : String × V} (hnodup : (frame.map Prod.fst).Nodup) (hb : b ∈ frame) :
    frame.lookup b.1 = some b.2 := by
  induction frame with
  | nil => exact absurd hb List.not_mem_nil
  | cons c frame ih =>
      obtain ⟨hhead, hrest⟩ := List.nodup_cons.mp hnodup
      rcases List.mem_cons.mp hb with rfl | hb
      · exact List.lookup_cons_self
      · have hne : (b.1 == c.1) = false := by
          apply beq_false_of_ne
          rintro heq
          exact hhead (heq ▸ List.mem_map_of_mem hb)
        rw [List.lookup_cons, hne]
        exact ih hrest hb

/-- A name that is declared is found. -/
theorem isSome_lookup {name : String} (hname : name ∈ frame.map Prod.fst) : (frame.lookup name).isSome = true := by
  induction frame with
  | nil => exact absurd hname List.not_mem_nil
  | cons c frame ih =>
      rw [List.lookup_cons]
      cases hc : name == c.1 with
      | true => rfl
      | false =>
          rw [List.map_cons, List.mem_cons] at hname
          exact ih (hname.resolve_left (beq_eq_false_iff_ne.mp hc))

/-- All names of a frame, looked up one after the other. -/
theorem mapM_lookup (hnodup : (frame.map Prod.fst).Nodup) :
    ((frame.map Prod.fst).mapM fun name => frame.lookup name) = some (frame.map Prod.snd) := by
  have hall : ∀ part : List (String × V), (∀ b ∈ part, b ∈ frame) →
      ((part.map Prod.fst).mapM fun name => frame.lookup name) = some (part.map Prod.snd) := by
    intro part hpart
    induction part with
    | nil => rfl
    | cons b part ih =>
        rw [List.map_cons, List.mapM_cons, lookup_of_mem hnodup (hpart b List.mem_cons_self),
          ih fun c hc => hpart c (List.mem_cons_of_mem b hc)]
        rfl
  exact hall frame fun b hb => hb

/-- What the fields that bear the names of their variables make of the frame. -/
theorem applyEdits_eq (names : List String) :
    applyEdits edit (names.map fun name => (name, name)) frame =
      frame.map fun b => if b.1 ∈ names then (b.1, (edit b.1).getD b.2) else b := by
  induction names generalizing frame with
  | nil => exact (List.map_id frame).symm
  | cons name names ih =>
      have hcons : applyEdits edit ((name :: names).map fun name => (name, name)) frame =
          applyEdits edit (names.map fun name => (name, name))
            ((edit name).elim frame fun value => setVar name value frame) := rfl
      rw [hcons, ih]
      cases hedit : edit name with
      | none =>
          apply List.map_congr_left
          rintro ⟨n, value⟩ _
          by_cases hb : n = name
          · subst hb
            simp [hedit]
          · simp [hb]
      | some value =>
          rw [Option.elim_some, setVar, List.map_map]
          apply List.map_congr_left
          intro b _
          by_cases hb : b.1 = name
          · simp [hb, hedit]
          · simp [hb]

theorem execAll_append (first second : List Statement) (r : Running V) :
    execAll struct edit (first ++ second) r =
      (execAll struct edit first r).bind (execAll struct edit second) := by
  induction first generalizing r with
  | nil => rfl
  | cons s first ih =>
      rw [List.cons_append, execAll, execAll, Option.bind_assoc]
      congr 1
      funext r'
      exact ih r'

/-- The pointers are set one after the other. -/
theorem execAll_setArgs (edit : String → Option V) (names : List String) (r : Running V)
    (hpointers : ∀ name ∈ names, (struct.pointers.lookup name).isSome = true)
    (hframe : ∀ name ∈ names, (r.frame.lookup name).isSome = true) :
    execAll struct edit (names.map Statement.setArg) r =
      some { r with fields := r.fields ++ names.map fun name => (name, name) } := by
  induction names generalizing r with
  | nil =>
      rw [List.map_nil, List.map_nil, List.append_nil]
      rfl
  | cons name names ih =>
      have hrest := ih { r with fields := r.fields ++ [(name, name)] }
        (fun n hn => hpointers n (List.mem_cons_of_mem name hn)) fun n hn => hframe n (List.mem_cons_of_mem name hn)
      rw [List.append_assoc] at hrest
      rw [List.map_cons, execAll, Statement.exec,
        if_pos ⟨hpointers name List.mem_cons_self, hframe name List.mem_cons_self⟩, Option.bind_some]
      exact hrest

/-- The events of a body: the modules come first, then the original with the parameters in their places, then the
modules again. -/
def Method.events (m : Method) (index : Nat) (edit : String → Option V) (values : List V) : List (Event V) :=
  [.pre m.cls.baseName, .orig index (m.edited edit values), .post m.cls.baseName] ++
    if m.cls.ret.value = "" then [] else [.ret m.cls.ret.value]

/-- The variables of a call are the parameters. -/
theorem map_fst_zip_names {values : List V} (hlength : values.length = m.args.length) :
    (m.names.zip values).map Prod.fst = m.names := by
  apply List.map_fst_zip
  rw [Method.names, List.length_map]
  exact Nat.le_of_eq hlength.symm

/-- What the original is called with. -/
theorem mapM_lookup_edited (h : m.Compiles) (edit : String → Option V) {values : List V}
    (hlength : values.length = m.args.length) :
    (m.names.mapM fun name => (applyEdits edit (m.exposed.map fun name => (name, name)) (m.names.zip values)).lookup
      name) = some (m.edited edit values) := by
  have hnames : (applyEdits edit (m.exposed.map fun name => (name, name)) (m.names.zip values)).map Prod.fst =
      m.names := by
    have hfst : ∀ b : String × V, (if b.1 ∈ m.exposed then (b.1, (edit b.1).getD b.2) else b).1 = b.1 := by
      intro b
      split_ifs <;> rfl
    rw [applyEdits_eq, List.map_map]
    exact (List.map_congr_left fun b _ => hfst b).trans (map_fst_zip_names hlength)
  have hnodup := h.nodup
  rw [← hnames] at hnodup
  have hlookup := mapM_lookup hnodup
  rw [hnames] at hlookup
  rw [hlookup, applyEdits_eq, List.map_map, Method.edited, Method.names, List.zip_eq_zipWith, List.zipWith_map_left,
    List.map_zipWith]
  congr 1
  congr 1
  funext a value
  rw [Function.comp_apply]
  split_ifs <;> rfl

theorem isSome_lookup_names {values : List V} (hlength : values.length = m.args.length) {name : String}
    (hname : name ∈ m.names) : ((m.names.zip values).lookup name).isSome = true := by
  apply isSome_lookup
  rwa [map_fst_zip_names hlength]

/-- The constructor is given a parameter for each of its references. -/
theorem exec_initArgs (h : m.Compiles) (edit : String → Option V) {values : List V}
    (hlength : values.length = m.args.length) :
    (Statement.initArgs m.cls.initNames).exec m.cls.argsStruct edit ⟨m.names.zip values, [], []⟩ =
      some ⟨m.names.zip values, m.cls.initNames.map fun name => (name, name), []⟩ := by
  have hcount : m.cls.initNames.length = m.cls.argsStruct.references.length := by rw [h.names, List.length_map]
  have hdeclared : ∀ name ∈ m.cls.initNames, ((m.names.zip values).lookup name).isSome = true := by
    intro name hname
    rw [h.names] at hname
    obtain ⟨r, hr, rfl⟩ := List.mem_map.mp hname
    obtain ⟨a, ha, heq, -⟩ := h.references r hr
    exact isSome_lookup_names hlength (heq ▸ List.mem_map_of_mem ha)
  have hself : m.cls.initNames.zip m.cls.initNames = m.cls.initNames.map fun name => (name, name) := by
    rw [List.zip_eq_zipWith, List.zipWith_self]
  rw [Statement.exec, if_pos ⟨hcount, hdeclared⟩, ← h.names, hself]

/-- In front of the modules a body gives them a reference to each parameter that is exposed. -/
theorem execAll_prologue (h : m.Compiles) (edit : String → Option V) {values : List V}
    (hlength : values.length = m.args.length) :
    execAll m.cls.argsStruct edit
      (.initArgs m.cls.initNames :: (m.args.filter Argument.setArg).map fun a => .setArg a.name)
      ⟨m.names.zip values, [], []⟩ = some ⟨m.names.zip values, m.exposed.map fun name => (name, name), []⟩ := by
  have hset : ∀ name ∈ (m.args.filter Argument.setArg).map Argument.name,
      (m.cls.argsStruct.pointers.lookup name).isSome = true ∧ ((m.names.zip values).lookup name).isSome = true := by
    intro name hname
    obtain ⟨a, ha, rfl⟩ := List.mem_map.mp hname
    obtain ⟨ha, hpointer⟩ := List.mem_filter.mp ha
    constructor
    · exact isSome_lookup (List.mem_map_of_mem (h.pointers a ha hpointer))
    · exact isSome_lookup_names hlength (List.mem_map_of_mem ha)
  have hsetArgs := execAll_setArgs edit _
    (⟨m.names.zip values, m.cls.initNames.map fun name => (name, name), []⟩ : Running V)
    (fun name hname => (hset name hname).1) fun name hname => (hset name hname).2
  rw [List.map_map, ← List.map_append] at hsetArgs
  rw [execAll, exec_initArgs h edit hlength]
  exact hsetArgs

/-- The parameters of a body that compiles reach the original in their places, whatever the modules write. -/
theorem runBody (h : m.Compiles) (index : Nat) (edit : String → Option V) {values : List V}
    (hlength : values.length = m.args.length) : m.run index edit values = some (m.events index edit values) := by
  have horig := mapM_lookup_edited h edit hlength
  -- the references are set, and then the statements run one by one: pre, the original, post and the return
  rw [Method.run, Method.body, List.append_assoc, execAll_append, execAll_prologue h edit hlength, Option.bind_some,
    List.cons_append, execAll, Statement.exec, Option.bind_some, List.cons_append, execAll, Statement.exec, horig,
    Option.map_some, Option.bind_some, List.cons_append, execAll, Statement.exec, Option.bind_some, Method.events,
    List.nil_append]
  split_ifs with hvoid
  · rfl
  · rfl

end Body

/-! ## Signatures -/

/-- A type as the runtime reads it. -/
inductive Descriptor where
  | int
  | boolean
  | long
  | object (name : List Char)
  | array (elem : Descriptor)
  deriving DecidableEq, Repr

/-- The type of the C interface for it. -/
def Descriptor.cType : Descriptor → String
  | .int => "jint"
  | .boolean => "jboolean"
  | .long => "jlong"
  | .object name => if name = stringClass then "jstring" else "jobject"
  | .array .int => "jintArray"
  | .array .boolean => "jbooleanArray"
  | .array .long => "jlongArray"
  | .array _ => "jobjectArray"

def readType : List Char → Option (Descriptor × List Char)
  | 'I' :: rest => some (.int, rest)
  | 'Z' :: rest => some (.boolean, rest)
  | 'J' :: rest => some (.long, rest)
  | 'L' :: rest =>
      match rest.dropWhile (· ≠ ';') with
      | _ :: behind => some (.object (rest.takeWhile (· ≠ ';')), behind)
      | [] => none
  | '[' :: rest => (readType rest).map fun r => (.array r.1, r.2)
  | _ => none

/-- The types up to the closing bracket, `n` at most. -/
def readTypes (n : Nat) (s : List Char) : Option (List Descriptor × List Char) :=
  match n with
  | 0 => none
  | n + 1 =>
      if s.head? = some ')' then some ([], s.tail)
      else (readType s).bind fun first => (readTypes n first.2).map fun r => (first.1 :: r.1, r.2)

/-- The parameters and the result of a method; `none` is `void`. -/
def readSignature : List Char → Option (List Descriptor × Option Descriptor)
  | '(' :: s =>
      (readTypes s.length s).bind fun params =>
        if params.2 = ['V'] then some (params.1, none)
        else
          (readType params.2).bind fun ret => if ret.2 = [] then some (params.1, some ret.1) else none
  | _ => none

section Signatures

def JType.descriptor : JType → Descriptor
  | .jint => .int
  | .jboolean => .boolean
  | .jlong => .long
  | .jstring => .object stringClass
  | .array type => .array type.descriptor

theorem readType_object (rest : List Char) :
    readType ('L' :: stringClass ++ [';'] ++ rest) = some (.object stringClass, rest) := by
  have hname : ∀ c ∈ stringClass, decide (c ≠ ';') = true := List.all_eq_true.mp (by decide)
  rw [List.append_assoc, List.cons_append, readType, List.dropWhile_append_of_pos hname,
    List.takeWhile_append_of_pos hname]
  exact congrArg (fun name => some (Descriptor.object name, rest)) (List.append_nil stringClass)

theorem readType_jni (type : JType) (rest : List Char) :
    readType (type.jni ++ rest) = some (type.descriptor, rest) := by
  induction type with
  | jint => rfl
  | jboolean => rfl
  | jlong => rfl
  | jstring => exact readType_object rest
  | array type ih =>
      rw [JType.jni, List.cons_append, readType, ih]
      rfl

/-- The type of an array is not primitive. -/
theorem contains_cpp_array (type : JType) : primitives.contains (JType.array type).cpp = false := by
  rw [JType.cpp]
  split_ifs with hprimitive
  · have hcpp : type.cpp = "jint" ∨ type.cpp = "jboolean" ∨ type.cpp = "jlong" := by
      simpa [primitives] using hprimitive
    rcases hcpp with h | h | h
    · rw [h]
      decide
    · rw [h]
      decide
    · rw [h]
      decide
  · decide

/-- The runtime and the generator agree on what an array is in C. -/
theorem cType_descriptor (type : JType) : type.descriptor.cType = type.cpp := by
  cases type with
  | jint | jboolean | jlong => rfl
  | jstring =>
      rw [JType.descriptor, Descriptor.cType, if_pos rfl]
      rfl
  | array type =>
      cases type with
      | jint | jboolean | jlong | jstring => decide
      | array type =>
          rw [JType.cpp, contains_cpp_array]
          rfl

theorem head?_jni (type : JType) (rest : List Char) : (type.jni ++ rest).head? ≠ some ')' := by
  have hfirst : type.jni.head? ≠ some ')' ∧ type.jni ≠ [] := by
    cases type with
    | jint | jboolean | jlong | jstring => decide
    | array type => exact ⟨by rw [JType.jni, List.head?_cons]; decide, List.cons_ne_nil _ _⟩
  rw [List.head?_append_of_ne_nil _ hfirst.2]
  exact hfirst.1

theorem readTypes_jni (types : List JType) (rest : List Char) {n : Nat} (hn : types.length < n) :
    readTypes n (types.flatMap JType.jni ++ ')' :: rest) = some (types.map JType.descriptor, rest) := by
  induction types generalizing n with
  | nil =>
      cases n with
      | zero => exact absurd hn (Nat.lt_irrefl 0)
      | succ n => rfl
  | cons type types ih =>
      cases n with
      | zero => exact absurd hn (Nat.not_lt_zero _)
      | succ n =>
          rw [List.flatMap_cons, List.append_assoc, readTypes, if_neg (head?_jni type _), readType_jni,
            Option.bind_some, ih (Nat.lt_of_succ_lt_succ hn)]
          rfl

theorem length_le_length_flatMap (types : List JType) : types.length ≤ (types.flatMap JType.jni).length := by
  induction types with
  | nil => exact Nat.le_refl 0
  | cons type types ih =>
      have hpos : 0 < type.jni.length := by cases type <;> exact Nat.succ_pos _
      rw [List.flatMap_cons, List.length_append, List.length_cons]
      omega

/-- The signature that the runtime is given describes the C++ parameters and the result. -/
theorem readSignature_jni (m : Method) :
    ∃ params ret, readSignature m.jni = some (params, ret) ∧ params.map Descriptor.cType = m.cpp ∧
      ret.elim "void" Descriptor.cType = m.cls.ret.cpp := by
  have hparams : m.args.flatMap (fun a => a.type.jni) = (m.args.map Argument.type).flatMap JType.jni := by
    rw [List.flatMap_map]
  have htypes := readTypes_jni (m.args.map Argument.type) m.cls.ret.jni
    (n := ((m.args.map Argument.type).flatMap JType.jni ++ ')' :: m.cls.ret.jni).length) (by
      have hlength := length_le_length_flatMap (m.args.map Argument.type)
      rw [List.length_append, List.length_cons]
      omega)
  have hcpp : ((m.args.map Argument.type).map JType.descriptor).map Descriptor.cType = m.cpp := by
    rw [List.map_map, List.map_map, Method.cpp]
    exact List.map_congr_left fun a _ => cType_descriptor a.type
  have hjni : m.jni = '(' :: ((m.args.map Argument.type).flatMap JType.jni ++ ')' :: m.cls.ret.jni) := by
    rw [Method.jni, hparams, List.cons_append]
  rw [hjni, readSignature, htypes, Option.bind_some]
  cases m.cls with
  | forkAndSpec => exact ⟨_, some .int, rfl, hcpp, rfl⟩
  | specApp => exact ⟨_, none, rfl, hcpp, rfl⟩
  | forkServer => exact ⟨_, some .int, rfl, hcpp, rfl⟩

end Signatures

/-! ## The methods -/

section Methods

def uid : Argument := ⟨"uid", .jint, false⟩
def gid : Argument := ⟨"gid", .jint, false⟩
def gids : Argument := ⟨"gids", .array .jint, false⟩
def runtimeFlags : Argument := ⟨"runtime_flags", .jint, false⟩
def rlimits : Argument := ⟨"rlimits", .array (.array .jint), false⟩
def mountExternal : Argument := ⟨"mount_external", .jint, false⟩
def seInfo : Argument := ⟨"se_info", .jstring, false⟩
def niceName : Argument := ⟨"nice_name", .jstring, false⟩
def fdsToClose : Argument := ⟨"fds_to_close", .array .jint, false⟩
def instructionSet : Argument := ⟨"instruction_set", .jstring, false⟩
def appDataDir : Argument := ⟨"app_data_dir", .jstring, false⟩
def fdsToIgnore : Argument := ⟨"fds_to_ignore", .array .jint, true⟩
def isChildZygote : Argument := ⟨"is_child_zygote", .jboolean, true⟩
def isTopApp : Argument := ⟨"is_top_app", .jboolean, true⟩
def pkgDataInfoList : Argument := ⟨"pkg_data_info_list", .array .jstring, true⟩
def whitelistedDataInfoList : Argument := ⟨"whitelisted_data_info_list", .array .jstring, true⟩
def mountDataDirs : Argument := ⟨"mount_data_dirs", .jboolean, true⟩
def mountStorageDirs : Argument := ⟨"mount_storage_dirs", .jboolean, true⟩
def mountSyspropOverrides : Argument := ⟨"mount_sysprop_overrides", .jboolean, true⟩
def useFifoUi : Argument := ⟨"use_fifo_ui", .jboolean, false⟩
def cgroupUid : Argument := ⟨"cgroup_uid", .jint, false⟩
def permittedCapabilities : Argument := ⟨"permitted_capabilities", .jlong, false⟩
def effectiveCapabilities : Argument := ⟨"effective_capabilities", .jlong, false⟩

def fasL : Method where
  cls := .forkAndSpec
  args :=
    [uid, gid, gids, runtimeFlags, rlimits, mountExternal, seInfo, niceName, fdsToClose, instructionSet,
      appDataDir]

def fasO : Method where
  cls := .forkAndSpec
  args :=
    [uid, gid, gids, runtimeFlags, rlimits, mountExternal, seInfo, niceName, fdsToClose, fdsToIgnore,
      instructionSet, appDataDir]

def fasP : Method where
  cls := .forkAndSpec
  args :=
    [uid, gid, gids, runtimeFlags, rlimits, mountExternal, seInfo, niceName, fdsToClose, fdsToIgnore,
      isChildZygote, instructionSet, appDataDir]

def fasQAlt : Method where
  cls := .forkAndSpec
  args :=
    [uid, gid, gids, runtimeFlags, rlimits, mountExternal, seInfo, niceName, fdsToClose, fdsToIgnore,
      isChildZygote, instructionSet, appDataDir, isTopApp]

def fasR : Method where
  cls := .forkAndSpec
  args :=
    [uid, gid, gids, runtimeFlags, rlimits, mountExternal, seInfo, niceName, fdsToClose, fdsToIgnore,
      isChildZygote, instructionSet, appDataDir, isTopApp, pkgDataInfoList, whitelistedDataInfoList,
      mountDataDirs, mountStorageDirs]

def fasU : Method where
  cls := .forkAndSpec
  args :=
    [uid, gid, gids, runtimeFlags, rlimits, mountExternal, seInfo, niceName, fdsToClose, fdsToIgnore,
      isChildZygote, instructionSet, appDataDir, isTopApp, pkgDataInfoList, whitelistedDataInfoList,
      mountDataDirs, mountStorageDirs, mountSyspropOverrides]

def fasC : Method where
  cls := .forkAndSpec
  args :=
    [uid, gid, gids, runtimeFlags, rlimits, mountExternal, seInfo, niceName, fdsToClose, fdsToIgnore,
      isChildZygote, instructionSet, appDataDir, isTopApp, useFifoUi, pkgDataInfoList,
      whitelistedDataInfoList, mountDataDirs, mountStorageDirs, mountSyspropOverrides]

def fasCQpr2 : Method where
  cls := .forkAndSpec
  args :=
    [uid, cgroupUid, gid, gids, runtimeFlags, rlimits, mountExternal, seInfo, niceName, fdsToClose,
      fdsToIgnore, isChildZygote, instructionSet, appDataDir, isTopApp, useFifoUi, pkgDataInfoList,
      whitelistedDataInfoList, mountDataDirs, mountStorageDirs, mountSyspropOverrides]

def fasSamsungM : Method where
  cls := .forkAndSpec
  args :=
    [uid, gid, gids, runtimeFlags, rlimits, mountExternal, seInfo, anon 0 .jint, anon 1 .jint, niceName,
      fdsToClose, instructionSet, appDataDir]

def fasSamsungN : Method where
  cls := .forkAndSpec
  args :=
    [uid, gid, gids, runtimeFlags, rlimits, mountExternal, seInfo, anon 2 .jint, anon 3 .jint, niceName,
      fdsToClose, instructionSet, appDataDir, anon 4 .jint]

def fasSamsungO : Method where
  cls := .forkAndSpec
  args :=
    [uid, gid, gids, runtimeFlags, rlimits, mountExternal, seInfo, anon 5 .jint, anon 6 .jint, niceName,
      fdsToClose, fdsToIgnore, instructionSet, appDataDir]

def fasSamsungP : Method where
  cls := .forkAndSpec
  args :=
    [uid, gid, gids, runtimeFlags, rlimits, mountExternal, seInfo, anon 7 .jint, anon 8 .jint, niceName,
      fdsToClose, fdsToIgnore, isChildZygote, instructionSet, appDataDir]

def fasGrapheneosU : Method where
  cls := .forkAndSpec
  args :=
    [uid, gid, gids, runtimeFlags, rlimits, mountExternal, seInfo, niceName, fdsToClose, fdsToIgnore,
      isChildZygote, instructionSet, appDataDir, isTopApp, pkgDataInfoList, whitelistedDataInfoList,
      mountDataDirs, mountStorageDirs, mountSyspropOverrides, anon 9 (.array .jlong)]

def fasGrapheneos17 : Method where
  cls := .forkAndSpec
  args :=
    [anon 10 (.array .jlong), uid, gid, gids, runtimeFlags, rlimits, mountExternal, seInfo, niceName,
      fdsToClose, fdsToIgnore, isChildZygote, instructionSet, appDataDir, isTopApp, anon 11 .jboolean,
      pkgDataInfoList, whitelistedDataInfoList, mountDataDirs, mountStorageDirs, mountSyspropOverrides]

def specQ : Method where
  cls := .specApp
  args :=
    [uid, gid, gids, runtimeFlags, rlimits, mountExternal, seInfo, niceName, isChildZygote, instructionSet,
      appDataDir]

def specQAlt : Method where
  cls := .specApp
  args :=
    [uid, gid, gids, runtimeFlags, rlimits, mountExternal, seInfo, niceName, isChildZygote, instructionSet,
      appDataDir, isTopApp]

def specR : Method where
  cls := .specApp
  args :=
    [uid, gid, gids, runtimeFlags, rlimits, mountExternal, seInfo, niceName, isChildZygote, instructionSet,
      appDataDir, isTopApp, pkgDataInfoList, whitelistedDataInfoList, mountDataDirs, mountStorageDirs]

def specU : Method where
  cls := .specApp
  args :=
    [uid, gid, gids, runtimeFlags, rlimits, mountExternal, seInfo, niceName, isChildZygote, instructionSet,
      appDataDir, isTopApp, pkgDataInfoList, whitelistedDataInfoList, mountDataDirs, mountStorageDirs,
      mountSyspropOverrides]

def specCQpr2 : Method where
  cls := .specApp
  args :=
    [uid, cgroupUid, gid, gids, runtimeFlags, rlimits, mountExternal, seInfo, niceName, isChildZygote,
      instructionSet, appDataDir, isTopApp, pkgDataInfoList, whitelistedDataInfoList, mountDataDirs,
      mountStorageDirs, mountSyspropOverrides]

def specSamsungQ : Method where
  cls := .specApp
  args :=
    [uid, gid, gids, runtimeFlags, rlimits, mountExternal, seInfo, anon 12 .jint, anon 13 .jint, niceName,
      isChildZygote, instructionSet, appDataDir]

def specGrapheneosU : Method where
  cls := .specApp
  args :=
    [uid, gid, gids, runtimeFlags, rlimits, mountExternal, seInfo, niceName, isChildZygote, instructionSet,
      appDataDir, isTopApp, pkgDataInfoList, whitelistedDataInfoList, mountDataDirs, mountStorageDirs,
      mountSyspropOverrides, anon 14 (.array .jlong)]

def specGrapheneos17 : Method where
  cls := .specApp
  args :=
    [anon 15 (.array .jlong), uid, gid, gids, runtimeFlags, rlimits, mountExternal, seInfo, niceName,
      isChildZygote, instructionSet, appDataDir, isTopApp, pkgDataInfoList, whitelistedDataInfoList,
      mountDataDirs, mountStorageDirs, mountSyspropOverrides]

def serverL : Method where
  cls := .forkServer
  args :=
    [uid, gid, gids, runtimeFlags, rlimits, permittedCapabilities, effectiveCapabilities]

def serverSamsungQ : Method where
  cls := .forkServer
  args :=
    [uid, gid, gids, runtimeFlags, anon 16 .jint, anon 17 .jint, rlimits, permittedCapabilities,
      effectiveCapabilities]

/-- The methods in the order of the table. -/
def zygoteMethods : List Method :=
  [fasL, fasO, fasP, fasQAlt, fasR, fasU, fasC, fasCQpr2, fasSamsungM, fasSamsungN, fasSamsungO,
    fasSamsungP, fasGrapheneosU, fasGrapheneos17, specQ, specQAlt, specR, specU, specCQpr2,
    specSamsungQ, specGrapheneosU, specGrapheneos17, serverL, serverSamsungQ]

/-- A compiler takes every one of them. -/
theorem compiles_of_mem : ∀ m ∈ zygoteMethods, m.Compiles := by
  decide

end Methods

/-! ## The table -/

/-- An address in the process: an implementation of the runtime, or the function of a table entry. -/
inductive Pointer (P : Type u) where
  | original (p : P)
  | hook (index : Nat)
  deriving DecidableEq

section Table

variable {P : Type u} {M : Type v} {V : Type v}

def tableEntry (index : Nat) (m : Method) : JNINativeMethod (Pointer P) :=
  ⟨m.cls.baseName, String.ofList m.jni, some (.hook index)⟩

/-- `zygote_methods`. -/
def table : List (JNINativeMethod (Pointer P)) := zygoteMethods.mapIdx tableEntry

/-- What a call does. -/
inductive Effect (P : Type u) (V : Type v) where
  | pre (method : String)
  /-- The call of an implementation of the runtime. -/
  | implementation (p : P) (values : List V)
  | post (method : String)
  | ret (value : String)
  deriving DecidableEq

/-- What an event of a body is, given `g_hook->zygote_methods`; `none` if the table has no implementation at the
index. -/
def resolve (entries : List (JNINativeMethod (Pointer P))) : Event V → Option (Effect P V)
  | .pre method => some (.pre method)
  | .orig index values =>
      (entries[index]?.bind JNINativeMethod.fnPtr).bind fun
        | .original p => some (.implementation p values)
        | .hook _ => none
  | .post method => some (.post method)
  | .ret value => some (.ret value)

/-- What a call does, in order. `entries` is `g_hook->zygote_methods`. -/
def call (entries : List (JNINativeMethod (Pointer P))) (edit : String → Option V) (values : List V) :
    Pointer P → Option (List (Effect P V))
  | .original p => some [.implementation p values]
  | .hook index => (zygoteMethods[index]?.bind fun m => m.run index edit values).bind (List.mapM (resolve entries))

/-- A hook calls what its own entry has recorded, between the steps of the modules. -/
theorem call_hook {entries : List (JNINativeMethod (Pointer P))} {index : Nat} {m : Method} {p : P}
    (hm : zygoteMethods[index]? = some m) (hentry : entries[index]?.bind JNINativeMethod.fnPtr = some (.original p))
    (edit : String → Option V) {values : List V} (hlength : values.length = m.args.length) :
    call entries edit values (.hook index) =
      some ([.pre m.cls.baseName, .implementation p (m.edited edit values), .post m.cls.baseName] ++
        if m.cls.ret.value = "" then [] else [.ret m.cls.ret.value]) := by
  have hcompiles : m.Compiles := compiles_of_mem m (List.mem_of_getElem? hm)
  have horig : resolve entries (.orig index (m.edited edit values)) =
      some (.implementation p (m.edited edit values)) := by
    rw [resolve, hentry, Option.bind_some]
  rw [call, hm, Option.bind_some, runBody hcompiles index edit hlength, Option.bind_some, Method.events,
    List.cons_append, List.cons_append, List.mapM_cons, List.mapM_cons, horig]
  split_ifs with hvoid
  · rfl
  · rfl

variable [DecidableEq M]

/-- On every runtime: a method of the class keeps its implementation, or the table replaces it by a hook. A call of
that runs the modules' pre step, then once the implementation that was replaced, with all parameters in their places,
then the post step, and returns. -/
theorem hooked_calls_original (MODIFIER_NATIVE : BitVec 32) (clazz : Clazz M) (data : M → P) (method : M) :
    let hooked := hookJniMethods MODIFIER_NATIVE (some clazz) (fun method => .original (data method)) table
    hooked.2 method = .original (data method) ∨
      ∃ index m, zygoteMethods[index]? = some m ∧ clazz.methodId (tableEntry (P := P) index m) = some method ∧
        hooked.2 method = .hook index ∧
        ∀ (edit : String → Option V) (values : List V), values.length = m.args.length →
          call hooked.1 edit values (.hook index) =
            some ([.pre m.cls.baseName, .implementation (data method) (m.edited edit values), .post m.cls.baseName] ++
              if m.cls.ret.value = "" then [] else [.ret m.cls.ret.value]) := by
  intro hooked
  have hhooked : hooked = (table.map (record MODIFIER_NATIVE clazz fun method => .original (data method)),
      assign (fun method => .original (data method)) (table.filterMap (binding MODIFIER_NATIVE clazz))) :=
    hookJniMethods_some table
  rw [hhooked]
  dsimp only
  by_cases hkey : method ∈ ((table (P := P)).filterMap (binding MODIFIER_NATIVE clazz)).map Prod.fst
  · right
    -- the entry that was registered last for the method
    have hassigned := assign_mem (f := fun method => Pointer.original (data method)) hkey
    obtain ⟨e, he, hbinding⟩ := List.mem_filterMap.mp hassigned
    obtain ⟨index, hindex⟩ := List.mem_iff_getElem?.mp he
    rw [table, List.getElem?_mapIdx] at hindex
    obtain ⟨m, hm, rfl⟩ := Option.map_eq_some_iff.mp hindex
    obtain ⟨method', htarget, hpointer⟩ := Option.bind_eq_some_iff.mp hbinding
    obtain ⟨p, hp, hpair⟩ := Option.map_eq_some_iff.mp hpointer
    obtain ⟨rfl, hvalue⟩ := Prod.mk.inj hpair
    obtain rfl := Option.some.inj hp
    refine ⟨index, m, hm, (target_eq_some_iff.mp htarget).2.1, hvalue.symm, ?_⟩
    intro edit values hlength
    apply call_hook hm _ edit hlength
    rw [List.getElem?_map, table, List.getElem?_mapIdx, hm, Option.map_some, Option.map_some, Option.bind_some, record,
      htarget]
    rfl
  · left
    exact assign_of_notMem hkey

end Table

end NeoZygisk.Injector.JniGenerator
