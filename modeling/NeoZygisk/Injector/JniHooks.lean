import NeoZygisk.Lib.Assignments
import Mathlib.Data.List.Forall2

/-!
# Replacing native methods and putting them back

`hook_jni_methods` takes an array of names, signatures and function pointers, installs the pointers and
leaves in their place what was installed before: run once more on the same array, it is meant to undo
itself. Entries drop out on three grounds, with null left in them: they had a null pointer, their name
resolves to nothing, or the method is not native.

The old pointers are read while the array is walked and the new ones installed after the walk, so two
entries for one method record the same old pointer. `hookLoop_eq` says what the walk leaves;
`hookJniMethods_twice` is the undoing, an instance of `assign_undo` because the second walk takes up
exactly the entries that the first one did (`binding_record`).
-/

set_option autoImplicit false

namespace NeoZygisk.Injector.JniHooks

open NeoZygisk.Lib

universe u v

/-- A `JNINativeMethod`. `P` are the addresses of functions, `none` is the null pointer. -/
structure JNINativeMethod (P : Type u) where
  name : String
  signature : String
  fnPtr : Option P
  deriving DecidableEq

/-- What the runtime answers about a class. `M` are its methods. -/
structure Clazz (M : Type v) where
  getMethodID : String → String → Option M
  getStaticMethodID : String → String → Option M
  getModifiers : M → BitVec 32

namespace Clazz

variable {M : Type v} {P : Type u} (clazz : Clazz M)

/-- The method an entry names: an instance method, else a static one. -/
def methodId (e : JNINativeMethod P) : Option M :=
  match clazz.getMethodID e.name e.signature with
  | some method => some method
  | none => clazz.getStaticMethodID e.name e.signature

end Clazz

section Hook

variable {M : Type v} {P : Type u}

/-! ## `hook_jni_methods` -/

/-- The walk over the array: what it leaves of the array, and `hooks`. `data` is `GetData` of the
methods. The runtime points a native method that nothing is registered for at the stub that looks its
function up, so that there is an address in every one. -/
def hookLoop (MODIFIER_NATIVE : BitVec 32) (clazz : Clazz M) (data : M → P) :
    List (JNINativeMethod P) → List (JNINativeMethod P) × List (JNINativeMethod P)
  | [] => ([], [])
  | e :: methods =>
      let rest := hookLoop MODIFIER_NATIVE clazz data methods
      match e.fnPtr with
      -- an entry that an earlier walk gave up is passed over
      | none => (e :: rest.1, rest.2)
      | some _ =>
          match clazz.methodId e with
          | none => ({ e with fnPtr := none } :: rest.1, rest.2)
          | some method =>
              if clazz.getModifiers method &&& MODIFIER_NATIVE = 0#32 then
                ({ e with fnPtr := none } :: rest.1, rest.2)
              else ({ e with fnPtr := some (data method) } :: rest.1, e :: rest.2)

/-- `RegisterNatives`: the listed pointers, in order. -/
def registerNatives [DecidableEq M] (clazz : Clazz M) (data : M → P) (hooks : List (JNINativeMethod P)) : M → P :=
  assign data (hooks.filterMap fun e => (clazz.methodId e).bind fun method => e.fnPtr.map fun p => (method, p))

/-- The array and the implementations afterwards. `none` stands for a class that is not found. -/
def hookJniMethods [DecidableEq M] (MODIFIER_NATIVE : BitVec 32) (findClass : Option (Clazz M)) (data : M → P)
    (methods : List (JNINativeMethod P)) : List (JNINativeMethod P) × (M → P) :=
  match findClass with
  | none => (methods.map fun e => { e with fnPtr := none }, data)
  | some clazz =>
      let walked := hookLoop MODIFIER_NATIVE clazz data methods
      if walked.2.isEmpty then (walked.1, data)
      else (walked.1, registerNatives clazz data walked.2)

/-! ## What is to hold -/

/-- The entry has a pointer and names a native method of the class. -/
structure ResolvesTo (MODIFIER_NATIVE : BitVec 32) (findClass : Option (Clazz M)) (e : JNINativeMethod P)
    (method : M) : Prop where
  fnPtr : e.fnPtr ≠ none
  named : ∃ clazz, findClass = some clazz ∧
    (clazz.getMethodID e.name e.signature = some method ∨
      clazz.getMethodID e.name e.signature = none ∧
        clazz.getStaticMethodID e.name e.signature = some method) ∧
    clazz.getModifiers method &&& MODIFIER_NATIVE ≠ 0#32

/-- What becomes of an entry: the implementation its method had, or null. -/
structure Recorded (MODIFIER_NATIVE : BitVec 32) (findClass : Option (Clazz M)) (data : M → P)
    (e e' : JNINativeMethod P) : Prop where
  name : e'.name = e.name
  signature : e'.signature = e.signature
  native : ∀ method, ResolvesTo MODIFIER_NATIVE findClass e method → e'.fnPtr = some (data method)
  other : (∀ method, ¬ ResolvesTo MODIFIER_NATIVE findClass e method) → e'.fnPtr = none

/-- What becomes of the methods: the last entry for a method supplies the implementation, and a method that
no entry resolves to keeps its own. -/
structure Installed (MODIFIER_NATIVE : BitVec 32) (findClass : Option (Clazz M))
    (methods : List (JNINativeMethod P)) (data data' : M → P) : Prop where
  last : ∀ before e after method, methods = before ++ e :: after →
    ResolvesTo MODIFIER_NATIVE findClass e method →
      (∀ e' ∈ after, ¬ ResolvesTo MODIFIER_NATIVE findClass e' method) → e.fnPtr = some (data' method)
  other : ∀ method, (∀ e ∈ methods, ¬ ResolvesTo MODIFIER_NATIVE findClass e method) →
    data' method = data method

/-! ## The walk as a map -/

section Walk

variable (MODIFIER_NATIVE : BitVec 32) (clazz : Clazz M) (data : M → P)

/-- The native method that an entry takes effect on. -/
def target (e : JNINativeMethod P) : Option M :=
  e.fnPtr.bind fun _ => (clazz.methodId e).filter fun method => clazz.getModifiers method &&& MODIFIER_NATIVE != 0#32

/-- The entry after the walk. -/
def record (e : JNINativeMethod P) : JNINativeMethod P :=
  { e with fnPtr := (target MODIFIER_NATIVE clazz e).map data }

/-- The assignment an entry stands for. -/
def binding (e : JNINativeMethod P) : Option (M × P) :=
  (target MODIFIER_NATIVE clazz e).bind fun method => e.fnPtr.map fun p => (method, p)

variable {MODIFIER_NATIVE clazz data} {e : JNINativeMethod P} {method : M}

theorem target_eq_some_iff :
    target MODIFIER_NATIVE clazz e = some method ↔
      e.fnPtr ≠ none ∧ clazz.methodId e = some method ∧ clazz.getModifiers method &&& MODIFIER_NATIVE ≠ 0#32 := by
  cases hfn : e.fnPtr with
  | none => simp [target, hfn]
  | some p => simp [target, hfn, Option.filter_eq_some_iff]

/-- What `target` computes is what it means for an entry to resolve. -/
theorem resolvesTo_iff :
    ResolvesTo MODIFIER_NATIVE (some clazz) e method ↔ target MODIFIER_NATIVE clazz e = some method := by
  have hid : clazz.methodId e = some method ↔
      clazz.getMethodID e.name e.signature = some method ∨
        clazz.getMethodID e.name e.signature = none ∧
          clazz.getStaticMethodID e.name e.signature = some method := by
    cases hfound : clazz.getMethodID e.name e.signature <;> simp [Clazz.methodId, hfound]
  rw [target_eq_some_iff]
  constructor
  · rintro ⟨hfn, clazz', hclazz, hnamed, hnative⟩
    obtain rfl := Option.some.inj hclazz
    exact ⟨hfn, hid.mpr hnamed, hnative⟩
  · rintro ⟨hfn, hnamed, hnative⟩
    exact ⟨hfn, clazz, rfl, hid.mp hnamed, hnative⟩

/-- A null pointer is left as it is. -/
theorem record_of_none (hfn : e.fnPtr = none) : record MODIFIER_NATIVE clazz data e = e := by
  obtain ⟨name, signature, fnPtr⟩ := e
  obtain rfl : fnPtr = none := hfn
  rfl

theorem hookLoop_eq (methods : List (JNINativeMethod P)) :
    hookLoop MODIFIER_NATIVE clazz data methods =
      (methods.map (record MODIFIER_NATIVE clazz data),
        methods.filter fun e => (target MODIFIER_NATIVE clazz e).isSome) := by
  induction methods with
  | nil => rfl
  | cons e methods ih =>
      rw [hookLoop, ih, List.map_cons, List.filter_cons]
      cases hfn : e.fnPtr with
      | none =>
          have htarget : (target MODIFIER_NATIVE clazz e).isSome = false := by simp [target, hfn]
          simp [record_of_none hfn, htarget]
      | some p =>
          cases hid : clazz.methodId e with
          | none => simp [record, target, hfn, hid]
          | some method =>
              by_cases hnative : clazz.getModifiers method &&& MODIFIER_NATIVE = 0#32
              · simp [record, target, hfn, hid, hnative, Option.filter]
              · simp [record, target, hfn, hid, hnative, Option.filter]

/-- The pointer of an entry that takes effect is there to be installed. -/
theorem binding_eq_of_isSome (h : (target MODIFIER_NATIVE clazz e).isSome = true) :
    binding MODIFIER_NATIVE clazz e =
      (clazz.methodId e).bind fun method => e.fnPtr.map fun p => (method, p) := by
  obtain ⟨method, hmethod⟩ := Option.isSome_iff_exists.mp h
  rw [binding, hmethod, (target_eq_some_iff.mp hmethod).2.1]

theorem binding_eq_none (h : (target MODIFIER_NATIVE clazz e).isSome = false) :
    binding MODIFIER_NATIVE clazz e = none := by
  have htarget : target MODIFIER_NATIVE clazz e = none := by simpa using h
  rw [binding, htarget]
  rfl

/-- Entries that do not resolve to a method assign nothing to it. -/
theorem notMem_bindings {methods : List (JNINativeMethod P)}
    (h : ∀ e ∈ methods, ¬ ResolvesTo MODIFIER_NATIVE (some clazz) e method) :
    method ∉ (methods.filterMap (binding MODIFIER_NATIVE clazz)).map Prod.fst := by
  intro hmem
  obtain ⟨b, hb, rfl⟩ := List.mem_map.mp hmem
  obtain ⟨e, he, hbinding⟩ := List.mem_filterMap.mp hb
  obtain ⟨target, htarget, hfn⟩ := Option.bind_eq_some_iff.mp hbinding
  obtain ⟨p, -, rfl⟩ := Option.map_eq_some_iff.mp hfn
  exact h e he (resolvesTo_iff.mpr htarget)

/-- An entry that resolves to a method assigns its pointer to it. -/
theorem exists_binding (h : ResolvesTo MODIFIER_NATIVE (some clazz) e method) :
    ∃ p, e.fnPtr = some p ∧ binding MODIFIER_NATIVE clazz e = some (method, p) := by
  obtain ⟨p, hp⟩ := Option.ne_none_iff_exists'.mp h.fnPtr
  refine ⟨p, hp, ?_⟩
  rw [binding, resolvesTo_iff.mp h, hp]
  rfl

/-- What `RegisterNatives` gets from the walk is the bindings of the entries. -/
theorem registerNatives_hookLoop [DecidableEq M] (methods : List (JNINativeMethod P)) :
    registerNatives clazz data (hookLoop MODIFIER_NATIVE clazz data methods).2 =
      assign data (methods.filterMap (binding MODIFIER_NATIVE clazz)) := by
  rw [hookLoop_eq, registerNatives, List.filterMap_filter]
  congr 1
  apply List.filterMap_congr
  intro e _
  split_ifs with htarget
  · exact (binding_eq_of_isSome htarget).symm
  · exact (binding_eq_none (by simpa using htarget)).symm

theorem hookJniMethods_some [DecidableEq M] (methods : List (JNINativeMethod P)) :
    hookJniMethods MODIFIER_NATIVE (some clazz) data methods =
      (methods.map (record MODIFIER_NATIVE clazz data),
        assign data (methods.filterMap (binding MODIFIER_NATIVE clazz))) := by
  rw [← registerNatives_hookLoop, hookJniMethods, hookLoop_eq]
  split_ifs with hempty
  · rw [List.isEmpty_iff.mp hempty]
    rfl
  · rfl

/-- A recorded entry takes effect on the same method. -/
theorem target_record :
    target MODIFIER_NATIVE clazz (record MODIFIER_NATIVE clazz data e) = target MODIFIER_NATIVE clazz e := by
  cases htarget : target MODIFIER_NATIVE clazz e with
  | none =>
      rw [record, htarget]
      rfl
  | some method =>
      obtain ⟨-, hid, hnative⟩ := target_eq_some_iff.mp htarget
      apply target_eq_some_iff.mpr
      exact ⟨by simp [record, htarget], hid, hnative⟩

/-- It installs what the method had. -/
theorem binding_record :
    binding MODIFIER_NATIVE clazz (record MODIFIER_NATIVE clazz data e) =
      (binding MODIFIER_NATIVE clazz e).map fun b => (b.1, data b.1) := by
  rw [binding, target_record, binding]
  cases htarget : target MODIFIER_NATIVE clazz e with
  | none => rfl
  | some method =>
      obtain ⟨p, hp⟩ := Option.ne_none_iff_exists'.mp (target_eq_some_iff.mp htarget).1
      simp [record, htarget, hp]

theorem filterMap_binding_record (methods : List (JNINativeMethod P)) :
    (methods.map (record MODIFIER_NATIVE clazz data)).filterMap (binding MODIFIER_NATIVE clazz) =
      (methods.filterMap (binding MODIFIER_NATIVE clazz)).map fun b => (b.1, data b.1) := by
  rw [List.filterMap_map, List.map_filterMap]
  apply List.filterMap_congr
  intro e _
  exact binding_record

theorem recorded_record (e : JNINativeMethod P) :
    Recorded MODIFIER_NATIVE (some clazz) data e (record MODIFIER_NATIVE clazz data e) := by
  refine ⟨rfl, rfl, ?_, ?_⟩
  · intro method hmethod
    rw [record, resolvesTo_iff.mp hmethod]
    rfl
  · intro hother
    have htarget : target MODIFIER_NATIVE clazz e = none := by
      apply Option.eq_none_iff_forall_ne_some.mpr
      exact fun method hmethod => hother method (resolvesTo_iff.mpr hmethod)
    rw [record, htarget]
    rfl

end Walk

/-! ## Two calls -/

section Twice

variable [DecidableEq M] (MODIFIER_NATIVE : BitVec 32)

/-- A second call, whatever was registered in the meantime: the methods the first one replaced have what
they had before it, and the others are left alone. -/
theorem hookJniMethods_record (clazz : Clazz M) (data data' : M → P) (methods : List (JNINativeMethod P))
    (method : M) :
    (hookJniMethods MODIFIER_NATIVE (some clazz) data'
      (hookJniMethods MODIFIER_NATIVE (some clazz) data methods).1).2 method =
      if method ∈ (methods.filterMap (binding MODIFIER_NATIVE clazz)).map Prod.fst then data method
      else data' method := by
  rw [hookJniMethods_some, hookJniMethods_some, filterMap_binding_record]
  exact assign_map_fst data'

/-- Every entry is recorded as it should be. -/
theorem forall₂_recorded (findClass : Option (Clazz M)) (data : M → P) (methods : List (JNINativeMethod P)) :
    List.Forall₂ (Recorded MODIFIER_NATIVE findClass data) methods
      (hookJniMethods MODIFIER_NATIVE findClass data methods).1 := by
  cases findClass with
  | none =>
      rw [hookJniMethods, List.forall₂_map_right_iff]
      apply List.forall₂_same.mpr
      intro e _
      refine ⟨rfl, rfl, ?_, fun _ => rfl⟩
      rintro method ⟨-, clazz, hclazz, -⟩
      cases hclazz
  | some clazz =>
      rw [hookJniMethods_some, List.forall₂_map_right_iff]
      apply List.forall₂_same.mpr
      exact fun e _ => recorded_record e

/-- The first call installs what the array lists. -/
theorem hookJniMethods_installed (findClass : Option (Clazz M)) (data : M → P)
    (methods : List (JNINativeMethod P)) :
    Installed MODIFIER_NATIVE findClass methods data
      (hookJniMethods MODIFIER_NATIVE findClass data methods).2 := by
  cases findClass with
  | none =>
      refine ⟨?_, fun _ _ => rfl⟩
      rintro before e after method - ⟨-, clazz, hclazz, -⟩
      cases hclazz
  | some clazz =>
      rw [hookJniMethods_some]
      refine ⟨?_, fun method hother => assign_of_notMem (notMem_bindings hother)⟩
      rintro before e after method rfl he hafter
      obtain ⟨p, hp, hbinding⟩ := exists_binding he
      rw [List.filterMap_append, List.filterMap_cons_some hbinding, hp]
      exact congrArg some (assign_last (notMem_bindings hafter)).symm

/-- The second call undoes the first. -/
theorem hookJniMethods_undo (findClass : Option (Clazz M)) (data : M → P) (methods : List (JNINativeMethod P)) :
    (hookJniMethods MODIFIER_NATIVE findClass (hookJniMethods MODIFIER_NATIVE findClass data methods).2
      (hookJniMethods MODIFIER_NATIVE findClass data methods).1).2 = data := by
  cases findClass with
  | none => rfl
  | some clazz =>
      -- both calls make their assignments in one order, so the first method listed twice is no exception
      simp only [hookJniMethods_some, filterMap_binding_record]
      exact assign_undo

/-- Two calls on one array. After the first every entry that resolved holds what its method had and the
others hold null, and every method has the pointer that was listed last for it; after the second every method
has what it had before. -/
theorem hookJniMethods_twice (findClass : Option (Clazz M)) (data : M → P)
    (methods : List (JNINativeMethod P)) :
    let first := hookJniMethods MODIFIER_NATIVE findClass data methods
    List.Forall₂ (Recorded MODIFIER_NATIVE findClass data) methods first.1 ∧
      Installed MODIFIER_NATIVE findClass methods data first.2 ∧
      (hookJniMethods MODIFIER_NATIVE findClass first.2 first.1).2 = data :=
  ⟨forall₂_recorded MODIFIER_NATIVE findClass data methods,
    hookJniMethods_installed MODIFIER_NATIVE findClass data methods,
    hookJniMethods_undo MODIFIER_NATIVE findClass data methods⟩

end Twice

/-! ## The zygote's entry points -/

/-- What `hook_zygote_jni` finds of the runtime. `vm`: `JNI_GetCreatedJavaVMs`, a virtual machine and its
environment; `memberGetModifiers`: `Member.getModifiers`; `modifierNative`: the value of `Modifier.NATIVE`;
`artMethod`: what `ArtMethod::Init` returns. -/
structure Runtime where
  vm : Bool
  memberGetModifiers : Bool
  modifierNative : Option (BitVec 32)
  artMethod : Bool

/-- The fields of the `HookContext` that the two calls use. -/
structure HookContext (P : Type u) where
  zygoteMethods : List (JNINativeMethod P)
  MODIFIER_NATIVE : BitVec 32
  memberGetModifiers : Bool

/-- The entry points that have to resolve in one of their variants. -/
def entrypoints : List String :=
  ["nativeForkAndSpecialize", "nativeSpecializeAppProcess", "nativeForkSystemServer"]

/-- The names "no matching signature" is logged for. -/
def unmatched (methods : List (JNINativeMethod P)) : List String :=
  entrypoints.filter fun name => !methods.any fun e => e.fnPtr.isSome && e.name == name

/-- A pointer is left in the entries that resolve. -/
theorem Recorded.isSome_iff {MODIFIER_NATIVE : BitVec 32} {findClass : Option (Clazz M)} {data : M → P}
    {e e' : JNINativeMethod P} (h : Recorded MODIFIER_NATIVE findClass data e e') :
    e'.fnPtr.isSome = true ↔ ∃ method, ResolvesTo MODIFIER_NATIVE findClass e method := by
  constructor
  · intro hsome
    by_contra hnone
    rw [h.other (not_exists.mp hnone)] at hsome
    cases hsome
  · rintro ⟨method, hmethod⟩
    rw [h.native method hmethod]
    rfl

theorem exists_hooked_iff {MODIFIER_NATIVE : BitVec 32} {findClass : Option (Clazz M)} {data : M → P}
    {methods methods' : List (JNINativeMethod P)} {name : String}
    (h : List.Forall₂ (Recorded MODIFIER_NATIVE findClass data) methods methods') :
    (methods'.any fun e => e.fnPtr.isSome && e.name == name) = true ↔
      ∃ e ∈ methods, e.name = name ∧ ∃ method, ResolvesTo MODIFIER_NATIVE findClass e method := by
  induction h with
  | nil => simp
  | cons hhead _ ih =>
      simp only [List.any_cons, Bool.or_eq_true, Bool.and_eq_true, beq_iff_eq, List.exists_mem_cons_iff]
      rw [ih, hhead.isSome_iff, hhead.name, and_comm]

section Zygote

variable [DecidableEq M] (kZygote : Option (Clazz M))

/-- The context, the implementations and the names it complains about. -/
def hookZygoteJni (runtime : Runtime) (g_hook : HookContext P) (data : M → P) :
    HookContext P × (M → P) × List String :=
  if !runtime.vm then (g_hook, data, [])
  else
    -- what is not found now keeps the value an earlier call left
    let found : HookContext P :=
      { g_hook with
        memberGetModifiers := g_hook.memberGetModifiers || runtime.memberGetModifiers
        MODIFIER_NATIVE := runtime.modifierNative.getD g_hook.MODIFIER_NATIVE }
    if !found.memberGetModifiers || found.MODIFIER_NATIVE == 0#32 then (found, data, [])
    else if !runtime.artMethod then (found, data, [])
    else
      let hooked := hookJniMethods found.MODIFIER_NATIVE kZygote data found.zygoteMethods
      ({ found with zygoteMethods := hooked.1 }, hooked.2, unmatched hooked.1)

def restoreZygoteHook (g_hook : HookContext P) (data : M → P) : HookContext P × (M → P) :=
  let restored := hookJniMethods g_hook.MODIFIER_NATIVE kZygote data g_hook.zygoteMethods
  ({ g_hook with zygoteMethods := restored.1 }, restored.2)

/-- Either nothing of the zygote is touched, or `restore_zygote_hook` gives every method back what it
had. -/
theorem restoreZygoteHook_hookZygoteJni (runtime : Runtime) (g_hook : HookContext P) (data : M → P) :
    let hooked := hookZygoteJni kZygote runtime g_hook data
    (hooked.1.zygoteMethods = g_hook.zygoteMethods ∧ hooked.2.1 = data) ∨
      (restoreZygoteHook kZygote hooked.1 hooked.2.1).2 = data := by
  intro hooked
  simp only [hooked, hookZygoteJni]
  split_ifs
  · exact Or.inl ⟨rfl, rfl⟩
  · exact Or.inl ⟨rfl, rfl⟩
  · exact Or.inl ⟨rfl, rfl⟩
  · exact Or.inr (hookJniMethods_undo _ kZygote data _)

/-- The complaint is made for the entry points none of whose variants resolves. -/
theorem mem_unmatched_iff (MODIFIER_NATIVE : BitVec 32) (data : M → P) (methods : List (JNINativeMethod P))
    {name : String} :
    name ∈ unmatched (hookJniMethods MODIFIER_NATIVE kZygote data methods).1 ↔
      name ∈ entrypoints ∧
        ∀ e ∈ methods, e.name = name → ∀ method, ¬ ResolvesTo MODIFIER_NATIVE kZygote e method := by
  rw [unmatched, List.mem_filter, Bool.not_eq_true', ← Bool.not_eq_true,
    exists_hooked_iff (forall₂_recorded MODIFIER_NATIVE kZygote data methods)]
  push Not
  rfl

end Zygote

end Hook

end NeoZygisk.Injector.JniHooks
