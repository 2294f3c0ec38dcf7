import Mathlib.Algebra.Order.BigOperators.Group.List
import Mathlib.Algebra.Order.Ring.Nat
import PermissionAudit.Proofs.Dex.Extent
import PermissionAudit.Proofs.Machine.Lookup
import PermissionAudit.Proofs.Registry.Definition
import PermissionAudit.Sequence.KeyMap

/-!
Registering classes on the machine. A set of the names that are taken runs along,
and four counters: methods with code and stubs of the class in signed words of
32 bits, classes and methods in unsigned words of 64 bits. The only trap is the
overflow of a counter. It comes with `2 ^ 31` methods with code in one class,
which take a file of six gibibytes, or with `2 ^ 64` methods or classes.
-/

namespace PermissionAudit.Machine

open Dex (Error EncodedMethod ClassDef)
open Registry (Member)

/-! ## Members of a class -/

/-- Whether code is the stub of a platform library. -/
def isStub (dex : Dex) (code : Code) : Fallible Error Bool := do
  if code.instrs.length < Registry.stubLimit then
    let strings ← (code.instrs.filterMap (·.instr.stringIndex?)).mapM (string dex)
    return strings.contains Registry.stubText
  else
    return false

/-- The name of a method. -/
def memberName (dex : Dex) (encoded : EncodedMethod) : Fallible Error String := do
  let id ← finished (Dex.entry .method dex.methods encoded.index)
  string dex id.name

/-- Whether the code of a method is a stub; code that cannot be read is none. -/
def checkStub (dex : Dex) (encoded : EncodedMethod) : Run Bool := do
  match ← (code dex encoded).run with
  | .error _ => return false
  | .ok none => return false
  | .ok (some code) =>
    match ← (isStub dex code).run with
    | .ok stub => return stub
    | .error _ => return false

theorem isStub_eq (dex : Dex) (code : Code) :
    isStub dex code = finished (Registry.isStub dex code) := by
  rw [isStub, Registry.isStub]
  split
  · rw [finished_mapM fun index _ => string_eq dex index]
    exact finished_bind fun strings _ => rfl
  · rfl

theorem memberName_eq (dex : Dex) (encoded : EncodedMethod) :
    memberName dex encoded = finished (Registry.memberName dex encoded) :=
  finished_bind fun id _ => string_eq dex id.name

theorem checkStub_eq (className name : String) (dex : Dex) (encoded : EncodedMethod) :
    checkStub dex encoded = .ok (Registry.checkStub className name dex encoded).value := by
  rw [checkStub, Registry.checkStub, code_eq]
  cases dex.code encoded with
  | error e => rfl
  | ok code? =>
    cases code? with
    | none => rfl
    | some code =>
      show ((isStub dex code).run >>= _) = _
      rw [isStub_eq]
      cases hs : Registry.isStub dex code <;> simp only [hs] <;> rfl

/-- What is known of a class while its methods are taken in. -/
structure Tally where
  methods : List MethodInfo
  entries : List MethodEntry
  /-- Methods with code. -/
  coded : Int
  /-- Methods whose code is a stub. -/
  stubs : Int
  /-- The next method number. -/
  next : Nat

/-- Takes in a method, unless its name cannot be resolved. -/
def takeMethod (className : String) (dex : Dex) (t : Tally) (encoded : EncodedMethod) :
    Run Tally := do
  match ← (memberName dex encoded).run with
  | .error _ => return t
  | .ok name =>
    let coded ← if encoded.hasCode then addSigned 32 t.coded 1 else pure t.coded
    let stub ← if encoded.hasCode then checkStub dex encoded else pure false
    let stubs ← if stub then addSigned 32 t.stubs 1 else pure t.stubs
    let next ← add 64 t.next 1
    return {
      methods := t.methods ++ [⟨t.next, className, name, encoded.hasCode⟩]
      entries := t.entries ++ [⟨dex, encoded⟩]
      coded, stubs, next }

/-- The tally of members that are numbered from `first` on and entered behind `entries`. -/
def Tally.of (className : String) (dex : Dex) (entries : List MethodEntry) (first : Nat)
    (members : List Member) : Tally where
  methods := Registry.methodInfos className first members
  entries := entries ++ members.map fun m => ⟨dex, m.encoded⟩
  coded := (members.filterMap (·.stub)).length
  stubs := ((members.filterMap (·.stub)).filter id).length
  next := first + members.length

/-- The tally with one more member. -/
theorem Tally.of_append (className : String) (dex : Dex) (entries : List MethodEntry) (first : Nat)
    (members : List Member) (m : Member) :
    Tally.of className dex entries first (members ++ [m]) =
      { methods := (Tally.of className dex entries first members).methods ++
          [⟨first + members.length, className, m.name, m.encoded.hasCode⟩]
        entries := (Tally.of className dex entries first members).entries ++ [⟨dex, m.encoded⟩]
        coded := (Tally.of className dex entries first members).coded +
          if m.stub.isSome then 1 else 0
        stubs := (Tally.of className dex entries first members).stubs +
          if m.stub = some true then 1 else 0
        next := first + members.length + 1 } := by
  obtain ⟨name, encoded, stub⟩ := m
  rcases stub with _ | _ | _ <;>
    simp [Tally.of, Registry.methodInfos, List.zipIdx_append, List.filterMap_append, Nat.add_assoc]

/-- The counters hold the numbers of the members. -/
structure Countable (first : Nat) (members : List Member) : Prop where
  coded_lt : (members.filterMap (·.stub)).length < 2 ^ 31
  next_lt : first + members.length < 2 ^ 64

theorem Countable.of_append {first : Nat} {members later : List Member}
    (h : Countable first (members ++ later)) : Countable first members := by
  obtain ⟨coded, next⟩ := h
  rw [List.filterMap_append, List.length_append] at coded
  rw [List.length_append] at next
  constructor <;> omega

/-- A member with code, on top of `2 ^ 31 - 1` others, is one too many. -/
theorem countable_append_singleton {first : Nat} {members : List Member} {m : Member} :
    Countable first (members ++ [m]) ↔
      (members.filterMap (·.stub)).length + (if m.stub.isSome then 1 else 0) < 2 ^ 31 ∧
        first + members.length + 1 < 2 ^ 64 := by
  have coded : ((members ++ [m]).filterMap (·.stub)).length =
      (members.filterMap (·.stub)).length + if m.stub.isSome then 1 else 0 := by
    rw [List.filterMap_append, List.length_append]
    cases hs : m.stub <;> simp [hs]
  have next : first + (members ++ [m]).length = first + members.length + 1 := by
    rw [List.length_append, List.length_singleton, Nat.add_assoc]
  rw [← coded, ← next]
  exact ⟨fun h => ⟨h.coded_lt, h.next_lt⟩, fun h => ⟨h.1, h.2⟩⟩

/-- A counter in a signed word of 32 bits stays below `2 ^ 31`. -/
theorem limited_count (n : Nat) :
    Limited (n + 1 < 2 ^ 31) Trap.IsOverflow (· = (n + 1 : Int)) (addSigned 32 n 1) := by
  refine (Limited.addSigned 32 n 1).congr ?_
  rw [IsSigned]
  omega

/-- **One method**: it adds at most one to each counter, and one too many is an overflow. -/
theorem limited_takeMethod (className : String) (dex : Dex) (entries : List MethodEntry)
    {first : Nat} {members : List Member} (encoded : EncodedMethod)
    (h : Countable first members) :
    Limited
      (Countable first (members ++ (Registry.inspect className dex encoded).value.toList))
      Trap.IsOverflow
      (· = .of className dex entries first
        (members ++ (Registry.inspect className dex encoded).value.toList))
      (takeMethod className dex (.of className dex entries first members) encoded) := by
  rw [takeMethod, memberName_eq, Registry.inspect]
  cases Registry.memberName dex encoded with
  | error e =>
    show Limited _ _ _ (.ok _)
    simp only [Logged.value_bind, Logged.value_pure, Option.toList_none, List.append_nil]
    exact .ok h rfl
  | ok name =>
    have next := Limited.add 64 (first + members.length) 1
    rw [run_bind (run_finished _)]
    by_cases coded : encoded.hasCode
    · simp only [if_pos coded, Logged.value_bind, Logged.value_pure, Option.toList_some,
        countable_append_singleton, Option.isSome_some, if_true, Tally.of_append]
      refine (limited_count _).bind And.left fun _ counted count => ?_
      rw [run_bind (checkStub_eq className name dex encoded)]
      -- stubs are methods with code, so their counter never is ahead
      have stubs : addSigned 32 (Tally.of className dex entries first members).stubs 1 =
          .ok ((Tally.of className dex entries first members).stubs + 1) :=
        (limited_count _).eq_ok
          (Nat.lt_of_le_of_lt (Nat.succ_le_succ (List.length_filter_le _ _)) counted)
      cases (Registry.checkStub className name dex encoded).value with
      | true =>
        simp only [if_true, run_bind stubs]
        exact next.bind And.right fun _ room hn => .ok ⟨counted, room⟩ (by rw [count, hn]; rfl)
      | false =>
        exact next.bind And.right fun _ room hn => .ok ⟨counted, room⟩ (by rw [count, hn]; rfl)
    · simp only [if_neg coded, Logged.value_pure, Option.toList_some, Tally.of_append,
        countable_append_singleton]
      exact next.bind And.right fun _ room hn => .ok ⟨h.coded_lt, room⟩ (by rw [hn]; rfl)

/-- **All methods of a class**: the counters end at the numbers of its members. -/
theorem limited_takeMethods (className : String) (dex : Dex) (entries : List MethodEntry)
    {first : Nat} (c : ClassDef) (h : first < 2 ^ 64) :
    Limited (Countable first (Registry.members className dex c)) Trap.IsOverflow
      (· = .of className dex entries first (Registry.members className dex c))
      (c.methods.foldlM (takeMethod className dex) (.of className dex entries first [])) := by
  refine Limited.foldlM
    (F := fun done => Countable first
      (done.filterMap fun encoded => (Registry.inspect className dex encoded).value))
    (W := fun done t => t = Tally.of className dex entries first
      (done.filterMap fun encoded => (Registry.inspect className dex encoded).value)) ?_ ?_ ?_
  · intro done encoded fits
    rw [List.filterMap_append] at fits
    exact fits.of_append
  · exact ⟨⟨Nat.two_pow_pos 31, h⟩, rfl⟩
  · rintro done encoded - t fits rfl
    have last : [encoded].filterMap (fun m => (Registry.inspect className dex m).value) =
        (Registry.inspect className dex encoded).value.toList := by
      cases hi : (Registry.inspect className dex encoded).value <;> simp [hi]
    rw [List.filterMap_append, last]
    exact limited_takeMethod className dex entries encoded fits

/-- The counters tell phantom classes from others. -/
theorem isPhantom_eq (className : String) (dex : Dex) (entries : List MethodEntry) (first : Nat)
    (members : List Member) :
    Registry.isPhantom members =
      decide (0 < (Tally.of className dex entries first members).coded ∧
        (Tally.of className dex entries first members).stubs =
          (Tally.of className dex entries first members).coded) := by
  rw [Registry.isPhantom, Tally.of]
  generalize members.filterMap (·.stub) = verdicts
  have all : verdicts.all id = true ↔ (verdicts.filter id).length = verdicts.length := by
    rw [List.length_filter_eq_length_iff, List.all_eq_true]
  simp only [Int.natCast_pos, Int.natCast_inj, ← all, Bool.decide_and, Bool.decide_eq_true]
  cases verdicts <;> simp

/-! ## Classes -/

/-- Superclass and interfaces of a class. -/
def parents (dex : Dex) (c : ClassDef) :
    Fallible Error (Option Descriptor × List Descriptor) := do
  let superclass ← c.superclass.mapM (type dex)
  let interfaces ← c.interfaces.mapM (type dex)
  return (superclass, interfaces)

/-- Adds a class with its methods. -/
def addClass (r : Registry) (dex : Dex) (name : String) (superclass : Option Descriptor)
    (interfaces : List Descriptor) (c : ClassDef) : Run Registry := do
  let t ← c.methods.foldlM (takeMethod name dex) ⟨[], r.entries, 0, 0, r.methodCount⟩
  let classCount ← add 64 r.classCount 1
  return {
    classes := r.classes ++ [
      { name
        superclass := superclass.map (·.sourceName)
        interfaces := interfaces.map (·.sourceName)
        phantom := decide (0 < t.coded ∧ t.stubs = t.coded)
        methods := t.methods }]
    entries := t.entries
    classCount
    methodCount := t.next }

/-- Registered classes, and the names that are taken. -/
structure Registration where
  registry : Registry
  known : KeySet

/-- Registers a class definition. -/
def register (exclusions : List String) (s : Registration) (definition : Dex × ClassDef) :
    Run Registration := do
  let (dex, c) := definition
  match ← (type dex c.type).run with
  | .error _ => return s
  | .ok type =>
    if isExcluded exclusions type.sourceName then
      return s
    match ← (parents dex c).run with
    | .error _ => return s
    | .ok (superclass, interfaces) =>
      if s.known.contains type.sourceName then
        return s
      let known := s.known.insert type.sourceName ()
      let registry ← addClass s.registry dex type.sourceName superclass interfaces c
      return ⟨registry, known⟩

/-- Registers all classes whose names start with none of the exclusions. -/
def ofDexs (dexs : List Dex) (exclusions : List String) : Run Registry := do
  let s ← (Registry.definitions dexs).foldlM (register exclusions) ⟨Registry.empty, .leaf⟩
  return s.registry

theorem parents_eq (dex : Dex) (c : ClassDef) :
    parents dex c = finished (Registry.parents dex c) := by
  rw [parents, Registry.parents]
  have superclass : c.superclass.mapM (type dex) = finished (c.superclass.mapM dex.type) := by
    cases c.superclass with
    | none => rfl
    | some index =>
      rw [Option.mapM_some, Option.mapM_some, type_eq]
      exact finished_map _ _
  rw [superclass]
  refine finished_bind fun superclass _ => ?_
  rw [finished_mapM fun index _ => type_eq dex index]
  exact finished_bind fun interfaces _ => rfl

/-! ## Registries that can be counted -/

/-- The counters hold the numbers of all classes and methods, and for each class that of its
methods with code. -/
structure WithinCounters (r : Registry) : Prop where
  coded_lt : ∀ c ∈ r.classes, (c.methods.filter (·.hasBody)).length < 2 ^ 31
  methods_lt : r.methodCount < 2 ^ 64
  classes_lt : r.classCount < 2 ^ 64

/-- Methods with code are the members with a verdict on it. -/
theorem length_filter_hasBody {className : String} {first : Nat} {members : List Member}
    (h : ∀ m ∈ members, m.stub.isSome = m.encoded.hasCode) :
    ((Registry.methodInfos className first members).filter (·.hasBody)).length =
      (members.filterMap (·.stub)).length := by
  induction members generalizing first with
  | nil => rfl
  | cons m rest ih =>
    have later := @ih (first + 1) fun m hm => h m (List.mem_cons_of_mem _ hm)
    have verdict := h m List.mem_cons_self
    rw [Registry.methodInfos] at later ⊢
    rw [List.zipIdx_cons, List.map_cons, List.filter_cons, List.filterMap_cons]
    cases hs : m.stub <;> simp only [hs, Option.isSome_none, Option.isSome_some] at verdict <;>
      simp [← verdict, later]

theorem isSome_stub_of_mem_members {name : String} {dex : Dex} {c : ClassDef} {m : Member}
    (h : m ∈ Registry.members name dex c) : m.stub.isSome = m.encoded.hasCode := by
  obtain ⟨encoded, -, hm⟩ := List.mem_filterMap.mp h
  rw [Registry.inspect] at hm
  cases hn : Registry.memberName dex encoded with
  | error e => simp [hn] at hm
  | ok n =>
    simp only [hn] at hm
    by_cases coded : encoded.hasCode <;> simp [coded] at hm <;> subst hm <;> simp [coded]

/-- One more class can be counted exactly if its members can be, and the class itself. -/
theorem withinCounters_add {r : Registry} (h : WithinCounters r) (dex : Dex) (name : String)
    (superclass : Option Descriptor) (interfaces : List Descriptor) (c : ClassDef) :
    WithinCounters (r.add dex name superclass interfaces (Registry.members name dex c)) ↔
      Countable r.methodCount (Registry.members name dex c) ∧ r.classCount + 1 < 2 ^ 64 := by
  have coded := @length_filter_hasBody name r.methodCount (Registry.members name dex c)
    fun _ hm => isSome_stub_of_mem_members hm
  constructor
  · intro h'
    refine ⟨⟨?_, h'.methods_lt⟩, h'.classes_lt⟩
    rw [← coded]
    exact h'.coded_lt _ (List.mem_append_right _ (List.mem_singleton_self _))
  · rintro ⟨countable, classes⟩
    refine ⟨fun c' hc => ?_, countable.next_lt, classes⟩
    rcases List.mem_append.mp hc with hc | hc
    · exact h.coded_lt c' hc
    · obtain rfl := List.mem_singleton.mp hc
      exact coded ▸ countable.coded_lt

/-- **One class**: it is added, unless it or its methods are too many to be counted. -/
theorem limited_addClass {r : Registry} (h : WithinCounters r) (dex : Dex) (name : String)
    (superclass : Option Descriptor) (interfaces : List Descriptor) (c : ClassDef) :
    Limited (WithinCounters (r.add dex name superclass interfaces (Registry.members name dex c)))
      Trap.IsOverflow
      (· = r.add dex name superclass interfaces (Registry.members name dex c))
      (addClass r dex name superclass interfaces c) := by
  have start : (⟨[], r.entries, 0, 0, r.methodCount⟩ : Tally) =
      .of name dex r.entries r.methodCount [] := by
    simp [Tally.of, Registry.methodInfos]
  have counts := withinCounters_add h dex name superclass interfaces c
  rw [addClass, start]
  refine (limited_takeMethods name dex r.entries c h.methods_lt).bind
    (fun fits => (counts.mp fits).1) ?_
  rintro t counted rfl
  refine (Limited.add 64 r.classCount 1).bind (fun fits => (counts.mp fits).2) ?_
  rintro n classes rfl
  refine .ok (counts.mpr ⟨counted, classes⟩) ?_
  rw [Registry.add, isPhantom_eq name dex r.entries r.methodCount]
  rfl

/-! ## Registration -/

/-- The names that are taken are those of the registered classes. -/
def Registration.Knows (s : Registration) : Prop :=
  ∀ name, s.known.contains name ↔ name ∈ s.registry.classes.map (·.name)

theorem Registration.Knows.contains_eq {s : Registration} (h : s.Knows) (name : String) :
    s.known.contains name = s.registry.contains name := by
  rw [Bool.eq_iff_iff, h name, Registry.contains_iff]

/-- A registration without its records. -/
theorem value_register (exclusions : List String) (r : Registry) (dex : Dex) (c : ClassDef) :
    (Registry.register exclusions r (dex, c)).value =
      match dex.type c.type with
      | .error _ => r
      | .ok type =>
        if isExcluded exclusions type.sourceName then r
        else
          match Registry.parents dex c with
          | .error _ => r
          | .ok (superclass, interfaces) =>
            if r.contains type.sourceName then r
            else
              r.add dex type.sourceName superclass interfaces
                (Registry.members type.sourceName dex c) := by
  rw [Registry.register]
  cases dex.type c.type with
  | error e => rfl
  | ok type =>
    by_cases he : isExcluded exclusions type.sourceName
    · simp [he]
    cases Registry.parents dex c with
    | error e => simp [he]
    | ok resolved =>
      by_cases hk : r.contains type.sourceName
      · simp [he, hk]
      · simp [he, hk, Registry.members, Logged.value_mapM, List.filterMap_map]

/-- What can be counted after a registration could be counted before. -/
theorem WithinCounters.of_register {exclusions : List String} {r : Registry} {d : Dex × ClassDef}
    (h : WithinCounters (Registry.register exclusions r d).value) : WithinCounters r := by
  rcases Registry.register_cases exclusions r d with ⟨kept, -⟩ | ⟨name, s, i, -, -, -, -, added⟩
  · exact kept ▸ h
  · rw [added] at h
    refine ⟨fun c hc => h.coded_lt c (List.mem_append_left _ hc), ?_, ?_⟩
    · exact Nat.lt_of_le_of_lt (Nat.le_add_right _ _) h.methods_lt
    · exact Nat.lt_of_le_of_lt (Nat.le_succ _) h.classes_lt

/-- **One definition**: it is registered or left out, as the names that are taken tell, unless
it is too much to be counted. -/
theorem limited_register (exclusions : List String) {s : Registration}
    (h : WithinCounters s.registry) (hk : s.Knows) (d : Dex × ClassDef) :
    Limited (WithinCounters (Registry.register exclusions s.registry d).value) Trap.IsOverflow
      (fun s' => s'.registry = (Registry.register exclusions s.registry d).value ∧ s'.Knows)
      (register exclusions s d) := by
  obtain ⟨dex, c⟩ := d
  rw [value_register, register, type_eq]
  cases dex.type c.type with
  | error e => exact .ok h ⟨rfl, hk⟩
  | ok type =>
    rw [run_bind (run_finished _)]
    dsimp only
    split
    · exact .ok h ⟨rfl, hk⟩
    rw [parents_eq]
    cases Registry.parents dex c with
    | error e => exact .ok h ⟨rfl, hk⟩
    | ok resolved =>
      rw [run_bind (run_finished _)]
      dsimp only
      rw [hk.contains_eq]
      split
      · exact .ok h ⟨rfl, hk⟩
      · refine (limited_addClass h dex _ _ _ c).bind id ?_
        rintro r fits rfl
        refine .ok fits ⟨rfl, fun name => ?_⟩
        rw [KeyMap.contains_insert, hk name, Registry.add, List.map_append, List.mem_append,
          List.map_singleton, List.mem_singleton, or_comm]

/-- **All definitions**: registration comes to its end exactly if the registered classes can be
counted. -/
theorem limited_ofDexs (dexs : List Dex) (exclusions : List String) :
    Limited (WithinCounters (Registry.ofDexs dexs exclusions).value) Trap.IsOverflow
      (· = (Registry.ofDexs dexs exclusions).value) (ofDexs dexs exclusions) := by
  rw [Registry.ofDexs, Logged.value_foldlM]
  refine (Limited.foldlM
    (F := fun done => WithinCounters
      (done.foldl (fun r d => (Registry.register exclusions r d).value) Registry.empty))
    (W := fun done (s : Registration) => s.registry =
      done.foldl (fun r d => (Registry.register exclusions r d).value) Registry.empty ∧ s.Knows)
    ?_ ⟨⟨nofun, Nat.two_pow_pos 64, Nat.two_pow_pos 64⟩, rfl, ?_⟩ ?_).bind id ?_
  · intro done d fits
    rw [List.foldl_append] at fits
    exact fits.of_register
  · intro name
    simp [KeyMap.contains, Registry.empty]
  · rintro done d - s fits ⟨registered, known⟩
    rw [List.foldl_append]
    have step := limited_register exclusions (registered ▸ fits) known d
    rw [registered] at step
    exact step
  · rintro s fits ⟨registered, -⟩
    exact .ok fits registered

/-! ## Files -/

/-- A registration adds a class at most, with no more methods than it defines. -/
theorem growth_register (exclusions : List String) (r : Registry) (d : Dex × ClassDef) :
    (∀ c ∈ (Registry.register exclusions r d).value.classes,
        c ∈ r.classes ∨ c.methods.length ≤ d.2.methods.length) ∧
      (Registry.register exclusions r d).value.methodCount ≤ r.methodCount + d.2.methods.length ∧
      (Registry.register exclusions r d).value.classCount ≤ r.classCount + 1 := by
  rcases Registry.register_cases exclusions r d with ⟨kept, -⟩ | ⟨name, s, i, -, -, -, -, added⟩
  · rw [kept]
    exact ⟨fun c hc => .inl hc, Nat.le_add_right _ _, Nat.le_succ _⟩
  · have fewer : (Registry.members name d.1 d.2).length ≤ d.2.methods.length :=
      List.length_filterMap_le _ _
    rw [added]
    refine ⟨fun c hc => ?_, Nat.add_le_add_left fewer _, Nat.le_refl _⟩
    rcases List.mem_append.mp hc with hc | hc
    · exact .inl hc
    · obtain rfl := List.mem_singleton.mp hc
      exact .inr (by simpa [Registry.methodInfos] using fewer)

theorem growth_foldl (exclusions : List String) (defs : List (Dex × ClassDef)) (r : Registry) :
    (∀ c ∈ (defs.foldlM (Registry.register exclusions) r).value.classes,
        c ∈ r.classes ∨ ∃ d ∈ defs, c.methods.length ≤ d.2.methods.length) ∧
      (defs.foldlM (Registry.register exclusions) r).value.methodCount ≤
        r.methodCount + (defs.map (·.2.methods.length)).sum ∧
      (defs.foldlM (Registry.register exclusions) r).value.classCount ≤
        r.classCount + defs.length := by
  induction defs generalizing r with
  | nil => exact ⟨fun c hc => .inl hc, Nat.le_refl _, Nat.le_refl _⟩
  | cons d rest ih =>
    obtain ⟨classes, methods, count⟩ := growth_register exclusions r d
    obtain ⟨classes', methods', count'⟩ := ih (Registry.register exclusions r d).value
    rw [List.foldlM_cons, Logged.value_bind, List.map_cons, List.sum_cons, List.length_cons]
    refine ⟨fun c hc => ?_, by omega, by omega⟩
    rcases classes' c hc with old | ⟨d', hd, le⟩
    · rcases classes c old with old | le
      · exact .inl old
      · exact .inr ⟨d, List.mem_cons_self, le⟩
    · exact .inr ⟨d', List.mem_cons_of_mem _ hd, le⟩

/-- A file with less than six gibibytes can be counted: each method takes three bytes. -/
theorem withinCounters_of_read {b : Bytes} {dex : Dex} (hb : b.length < 3 * 2 ^ 31)
    (h : Dex.read b = .ok dex) (exclusions : List String) :
    WithinCounters (Registry.ofDexs [dex] exclusions).value := by
  obtain ⟨classes, methods⟩ := Dex.extent_classes h
  have defs : Registry.definitions [dex] = dex.classes.map (dex, ·) := by
    simp [Registry.definitions]
  have methods_lt : ∀ c ∈ dex.classes, c.methods.length < 2 ^ 31 := by
    intro c hc
    have := methods c hc
    omega
  obtain ⟨registered, methodCount, classCount⟩ :=
    growth_foldl exclusions (Registry.definitions [dex]) Registry.empty
  rw [Registry.ofDexs]
  refine ⟨fun c hc => ?_, Nat.lt_of_le_of_lt methodCount ?_, Nat.lt_of_le_of_lt classCount ?_⟩
  · rcases registered c hc with old | ⟨d, hd, le⟩
    · cases old
    · rw [defs] at hd
      obtain ⟨c', hc', rfl⟩ := List.mem_map.mp hd
      exact Nat.lt_of_le_of_lt (Nat.le_trans (List.length_filter_le _ _) le) (methods_lt c' hc')
  · rw [defs, List.map_map, Registry.empty, Nat.zero_add]
    -- classes may share their methods, so each is taken to have as many as the file has room for
    have total := List.sum_le_card_nsmul (dex.classes.map (·.methods.length)) (2 ^ 31) (by
      intro n hn
      obtain ⟨c, hc, rfl⟩ := List.mem_map.mp hn
      exact Nat.le_of_lt (methods_lt c hc))
    rw [List.length_map, Nat.nsmul_eq_mul] at total
    calc (dex.classes.map (·.methods.length)).sum
        ≤ dex.classes.length * 2 ^ 31 := total
      _ < 2 ^ 64 := by omega
  · rw [defs, List.length_map, Registry.empty, Nat.zero_add]
    omega

end PermissionAudit.Machine
