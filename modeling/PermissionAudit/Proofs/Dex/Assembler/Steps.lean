import Mathlib.Data.List.Induction
import PermissionAudit.Dex.Assembler.Basic

/-!
Runs of the assembler. Whatever is asked for, tables grow at their ends only and
every index that is stored points into the table it is meant for.
-/

namespace PermissionAudit

/-! ## Pools -/

namespace Pool

variable {α : Type} {p : Pool α} {key : String} {item x : α}

/-- Whatever is found is in the table. -/
def Bounded (p : Pool α) : Prop := ∀ key i, p.find? key = some i → i < p.size

theorem mem_items_push (h : x ∈ (p.push key item).items) : x ∈ p.items ∨ x = item := by
  simpa [push] using h

theorem size_push (p : Pool α) (key : String) (item : α) :
    (p.push key item).size = p.size + 1 := by
  simp [push, size]

theorem find?_push (p : Pool α) (key : String) (item : α) (k : String) :
    (p.push key item).find? k = if k = key then some p.size else p.find? k :=
  KeyMap.get?_insert ..

theorem Bounded.empty : (({} : Pool α)).Bounded := by
  intro key i found
  cases found

theorem Bounded.push (h : p.Bounded) (key : String) (item : α) : (p.push key item).Bounded := by
  intro k i found
  rw [find?_push] at found
  rw [size_push]
  split at found
  · cases found
    exact Nat.lt_succ_self _
  · exact Nat.lt_succ_of_lt (h k i found)

end Pool

namespace Assembler

/-! ## What is stored -/

/-- Whatever is found is in its table. -/
structure PoolsBounded (a : Assembler) : Prop where
  strings : a.strings.Bounded
  types : a.types.Bounded
  protos : a.protos.Bounded
  methods : a.methods.Bounded

/-- Method flags without unknown bits. -/
abbrev MethodFlagSet := { bits : Nat // Dex.MethodFlags.truncate bits = bits }

def Proto.Fits (a : Assembler) (p : Proto) : Prop :=
  p.shorty < a.strings.size ∧ p.returnType < a.types.size ∧ ∀ t ∈ p.parameters, t < a.types.size

/-- A reference whose last index is a name and whose second one is below `signatures`. -/
def Member.Fits (a : Assembler) (signatures : Nat) (m : Member) : Prop :=
  m.definer < a.types.size ∧ m.signature < signatures ∧ m.name < a.strings.size

def Method.Fits (a : Assembler) (m : Method) : Prop :=
  m.index < a.methods.size ∧ Dex.MethodFlags.truncate m.flags = m.flags

def Class.Fits (a : Assembler) (c : Class) : Prop :=
  c.type < a.types.size ∧ c.flags < 4294967296 ∧ (∀ s ∈ c.superclass, s < a.types.size) ∧
    (∀ i ∈ c.interfaces, i < a.types.size) ∧ ∀ m ∈ c.direct ++ c.virtual, m.Fits a

/-- All indices are in bounds, all strings satisfy `P` and the version digits satisfy `V`. -/
structure WellFormed (P : String → Prop) (V : List UInt8 → Prop) (a : Assembler) : Prop where
  pools : a.PoolsBounded
  strings : ∀ s ∈ a.strings.items, P s
  types : ∀ name ∈ a.types.items, name < a.strings.size
  protos : ∀ p ∈ a.protos.items, p.Fits a
  fields : ∀ f ∈ a.fields, f.Fits a a.types.size
  methods : ∀ m ∈ a.methods.items, m.Fits a a.protos.size
  classes : ∀ c ∈ a.classes, c.Fits a
  version : V a.version

/-- Tables got longer at their ends. -/
structure Grows (a b : Assembler) : Prop where
  strings : a.strings.items <+: b.strings.items
  types : a.types.items <+: b.types.items
  protos : a.protos.items <+: b.protos.items
  fields : a.fields <+: b.fields
  methods : a.methods.items <+: b.methods.items

namespace Grows

variable {a b c : Assembler}

theorem refl (a : Assembler) : Grows a a :=
  ⟨List.prefix_rfl, List.prefix_rfl, List.prefix_rfl, List.prefix_rfl, List.prefix_rfl⟩

theorem trans (h : Grows a b) (k : Grows b c) : Grows a c :=
  ⟨h.strings.trans k.strings, h.types.trans k.types, h.protos.trans k.protos,
    h.fields.trans k.fields, h.methods.trans k.methods⟩

theorem strings_le (h : Grows a b) : a.strings.size ≤ b.strings.size := h.strings.length_le

theorem types_le (h : Grows a b) : a.types.size ≤ b.types.size := h.types.length_le

theorem protos_le (h : Grows a b) : a.protos.size ≤ b.protos.size := h.protos.length_le

theorem methods_le (h : Grows a b) : a.methods.size ≤ b.methods.size := h.methods.length_le

end Grows

theorem Proto.Fits.mono {a b : Assembler} {p : Proto} (h : p.Fits a) (g : Grows a b) :
    p.Fits b := by
  obtain ⟨hshorty, hreturn, hparameters⟩ := h
  exact ⟨Nat.lt_of_lt_of_le hshorty g.strings_le, Nat.lt_of_lt_of_le hreturn g.types_le,
    fun t ht => Nat.lt_of_lt_of_le (hparameters t ht) g.types_le⟩

theorem Member.Fits.mono {a b : Assembler} {m : Member} {n n' : Nat} (h : m.Fits a n)
    (g : Grows a b) (hn : n ≤ n') : m.Fits b n' := by
  obtain ⟨hdefiner, hsignature, hname⟩ := h
  exact ⟨Nat.lt_of_lt_of_le hdefiner g.types_le, Nat.lt_of_lt_of_le hsignature hn,
    Nat.lt_of_lt_of_le hname g.strings_le⟩

theorem Class.Fits.mono {a b : Assembler} {c : Class} (h : c.Fits a) (g : Grows a b) :
    c.Fits b := by
  obtain ⟨htype, hflags, hsuper, hinterfaces, hmethods⟩ := h
  exact ⟨Nat.lt_of_lt_of_le htype g.types_le, hflags,
    fun s hs => Nat.lt_of_lt_of_le (hsuper s hs) g.types_le,
    fun i hi => Nat.lt_of_lt_of_le (hinterfaces i hi) g.types_le,
    fun m hm => ⟨Nat.lt_of_lt_of_le (hmethods m hm).1 g.methods_le, (hmethods m hm).2⟩⟩

section

variable {P : String → Prop} {V : List UInt8 → Prop} {a b : Assembler}

/-- After growth only what is new has to be looked at. -/
theorem WellFormed.grow (h : WellFormed P V a) (g : Grows a b) (pools : b.PoolsBounded)
    (strings : ∀ s ∈ b.strings.items, s ∈ a.strings.items ∨ P s)
    (types : ∀ name ∈ b.types.items, name ∈ a.types.items ∨ name < b.strings.size)
    (protos : ∀ p ∈ b.protos.items, p ∈ a.protos.items ∨ p.Fits b)
    (fields : ∀ f ∈ b.fields, f ∈ a.fields ∨ f.Fits b b.types.size)
    (methods : ∀ m ∈ b.methods.items, m ∈ a.methods.items ∨ m.Fits b b.protos.size)
    (classes : ∀ c ∈ b.classes, c ∈ a.classes ∨ c.Fits b)
    (version : b.version = a.version ∨ V b.version) : WellFormed P V b where
  pools := pools
  strings s hs := (strings s hs).elim (h.strings s) id
  types n hn := (types n hn).elim (fun hn => Nat.lt_of_lt_of_le (h.types n hn) g.strings_le) id
  protos p hp := (protos p hp).elim (fun hp => (h.protos p hp).mono g) id
  fields f hf := (fields f hf).elim (fun hf => (h.fields f hf).mono g g.types_le) id
  methods m hm := (methods m hm).elim (fun hm => (h.methods m hm).mono g g.protos_le) id
  classes c hc := (classes c hc).elim (fun hc => (h.classes c hc).mono g) id
  version := version.elim (fun e => e ▸ h.version) id

/-! ## One table at a time -/

/-- From a well-formed assembler the step leads to a well-formed one, by growth, and the result
satisfies `Q` there. -/
def Yields {α : Type} (P : String → Prop) (V : List UInt8 → Prop) (m : Assemble α)
    (a : Assembler) (Q : α → Assembler → Prop) : Prop :=
  WellFormed P V (m.run a).2 ∧ Grows a (m.run a).2 ∧ Q (m.run a).1 (m.run a).2

theorem Yields.pure {α : Type} {Q : α → Assembler → Prop} {x : α} (h : WellFormed P V a)
    (hx : Q x a) : Yields P V (Pure.pure x) a Q :=
  ⟨h, Grows.refl a, hx⟩

theorem Yields.bind {α β : Type} {m : Assemble α} {f : α → Assemble β}
    {Q : α → Assembler → Prop} {R : β → Assembler → Prop} (hm : Yields P V m a Q)
    (hf : ∀ x b, WellFormed P V b → Grows a b → Q x b → Yields P V (f x) b R) :
    Yields P V (m >>= f) a R := by
  obtain ⟨hwell, hgrows, hresult⟩ := hm
  obtain ⟨hwell', hgrows', hresult'⟩ := hf _ _ hwell hgrows hresult
  exact ⟨hwell', hgrows.trans hgrows', hresult'⟩

theorem Yields.get {α : Type} {f : Assembler → Assemble α} {Q : α → Assembler → Prop}
    (h : Yields P V (f a) a Q) : Yields P V (MonadState.get >>= f) a Q := h

theorem string_yields (h : WellFormed P V a) {s : String} (hs : P s) :
    Yields P V (string s) a fun i b => i < b.strings.size := by
  simp only [Yields, string, modifyGet, MonadStateOf.modifyGet, StateT.modifyGet, StateT.run]
  cases hfind : a.strings.find? s with
  | some index => exact ⟨h, Grows.refl a, h.pools.strings s index hfind⟩
  | none =>
    have hgrows : Grows a { a with strings := a.strings.push s s } :=
      { Grows.refl a with strings := List.prefix_append _ _ }
    refine ⟨h.grow hgrows { h.pools with strings := h.pools.strings.push s s } ?_ (fun _ => .inl) (fun _ => .inl) (fun _ => .inl) (fun _ => .inl)
      (fun _ => .inl) (.inl rfl), hgrows, ?_⟩
    · intro x hx
      rcases Pool.mem_items_push hx with hx | rfl
      · exact .inl hx
      · exact .inr hs
    · show a.strings.size < (a.strings.push s s).size
      rw [Pool.size_push]
      exact Nat.lt_succ_self _

/-- Adds an entry to the type table. -/
theorem pushType_yields (h : WellFormed P V a) (key : String) {name : Nat}
    (hname : name < a.strings.size) :
    Yields P V (modifyGet fun a => (a.types.size, { a with types := a.types.push key name })) a
      fun i b => i < b.types.size := by
  have hgrows : Grows a { a with types := a.types.push key name } :=
    { Grows.refl a with types := List.prefix_append _ _ }
  refine ⟨h.grow hgrows { h.pools with types := h.pools.types.push key name } (fun _ => .inl) ?_
    (fun _ => .inl) (fun _ => .inl) (fun _ => .inl) (fun _ => .inl) (.inl rfl), hgrows, ?_⟩
  · intro n hn
    rcases Pool.mem_items_push hn with hn | rfl
    · exact .inl hn
    · exact .inr hname
  · show a.types.size < (a.types.push key name).size
    rw [Pool.size_push]
    exact Nat.lt_succ_self _

theorem type_yields (h : WellFormed P V a) {descriptor : String} (hd : P descriptor) :
    Yields P V (type descriptor) a fun i b => i < b.types.size := by
  unfold type
  apply Yields.get
  cases hfind : a.types.find? descriptor with
  | some index => exact Yields.pure h (h.pools.types _ _ hfind)
  | none =>
    apply (string_yields h hd).bind
    intro name b hb _ hname
    exact pushType_yields hb descriptor hname

theorem types_yields (h : WellFormed P V a) {descriptors : List String}
    (hd : ∀ d ∈ descriptors, P d) :
    Yields P V (descriptors.mapM type) a fun is b => ∀ i ∈ is, i < b.types.size := by
  induction descriptors generalizing a with
  | nil => exact Yields.pure h (by simp)
  | cons d rest ih =>
    rw [List.mapM_cons]
    apply (type_yields h (hd d List.mem_cons_self)).bind
    intro i b hb _ hi
    apply (ih hb fun d hd' => hd d (List.mem_cons_of_mem _ hd')).bind
    intro is c hc hgrows his
    refine Yields.pure hc ?_
    intro j hj
    rcases List.mem_cons.mp hj with rfl | hj
    · exact Nat.lt_of_lt_of_le hi hgrows.types_le
    · exact his j hj

/-- What holds of a return type and of parameters holds of their short form. -/
def Shortens (P : String → Prop) : Prop :=
  ∀ returnType parameters, P returnType → (∀ p ∈ parameters, P p) →
    P (String.ofList ((returnType :: parameters).map shortyChar))

theorem pushProto_yields (h : WellFormed P V a) (key : String) {p : Proto} (hp : p.Fits a) :
    Yields P V (modifyGet fun a => (a.protos.size, { a with protos := a.protos.push key p })) a
      fun i b => i < b.protos.size := by
  have hgrows : Grows a { a with protos := a.protos.push key p } :=
    { Grows.refl a with protos := List.prefix_append _ _ }
  refine ⟨h.grow hgrows { h.pools with protos := h.pools.protos.push key p } (fun _ => .inl)
    (fun _ => .inl) ?_ (fun _ => .inl) (fun _ => .inl) (fun _ => .inl) (.inl rfl), hgrows, ?_⟩
  · intro q hq
    rcases Pool.mem_items_push hq with hq | rfl
    · exact .inl hq
    · exact .inr (hp.mono hgrows)
  · show a.protos.size < (a.protos.push key p).size
    rw [Pool.size_push]
    exact Nat.lt_succ_self _

theorem proto_yields (hP : Shortens P) (h : WellFormed P V a) {returnType : String}
    {parameters : List String} (hr : P returnType) (hp : ∀ p ∈ parameters, P p) :
    Yields P V (proto returnType parameters) a fun i b => i < b.protos.size := by
  unfold proto
  apply Yields.get
  cases hfind : a.protos.find? (protoKey returnType parameters) with
  | some index => exact Yields.pure h (h.pools.protos _ _ hfind)
  | none =>
    apply (string_yields h (hP returnType parameters hr hp)).bind
    intro shorty b hb _ hshorty
    apply (type_yields hb hr).bind
    intro returned c hc gc hreturned
    apply (types_yields hc hp).bind
    intro types d hd gd htypes
    -- indices found earlier stay in range, since the tables only grow
    exact pushProto_yields hd _ ⟨Nat.lt_of_lt_of_le hshorty (gc.trans gd).strings_le,
      Nat.lt_of_lt_of_le hreturned gd.types_le, htypes⟩

theorem fieldRef_yields (h : WellFormed P V a) {definer name fieldType : String} (hd : P definer)
    (hn : P name) (ht : P fieldType) :
    Yields P V (fieldRef definer name fieldType) a fun i b => i < b.fields.length := by
  apply (type_yields h hd).bind
  intro definer b hb _ hdefiner
  apply (type_yields hb ht).bind
  intro fieldType c hc gc htype
  apply (string_yields hc hn).bind
  intro name d hd gd hname
  have hfits : Member.Fits d d.types.size ⟨definer, fieldType, name⟩ :=
    ⟨Nat.lt_of_lt_of_le hdefiner (gc.trans gd).types_le, Nat.lt_of_lt_of_le htype gd.types_le,
      hname⟩
  have hgrows : Grows d { d with fields := d.fields ++ [⟨definer, fieldType, name⟩] } :=
    { Grows.refl d with fields := List.prefix_append _ _ }
  refine ⟨hd.grow hgrows { hd.pools with } (fun _ => .inl) (fun _ => .inl) (fun _ => .inl) ?_
    (fun _ => .inl) (fun _ => .inl) (.inl rfl), hgrows, ?_⟩
  · intro f hf
    rcases List.mem_append.mp hf with hf | hf
    · exact .inl hf
    · exact .inr (List.mem_singleton.mp hf ▸ hfits.mono hgrows hgrows.types_le)
  · show d.fields.length < (d.fields ++ [_]).length
    simp

theorem pushMethod_yields (h : WellFormed P V a) (key : String) {m : Member}
    (hm : m.Fits a a.protos.size) :
    Yields P V (modifyGet fun a => (a.methods.size, { a with methods := a.methods.push key m })) a
      fun i b => i < b.methods.size := by
  have hgrows : Grows a { a with methods := a.methods.push key m } :=
    { Grows.refl a with methods := List.prefix_append _ _ }
  refine ⟨h.grow hgrows { h.pools with methods := h.pools.methods.push key m } (fun _ => .inl)
    (fun _ => .inl) (fun _ => .inl) (fun _ => .inl) ?_ (fun _ => .inl) (.inl rfl), hgrows, ?_⟩
  · intro n hn
    rcases Pool.mem_items_push hn with hn | rfl
    · exact .inl hn
    · exact .inr (hm.mono hgrows hgrows.protos_le)
  · show a.methods.size < (a.methods.push key m).size
    rw [Pool.size_push]
    exact Nat.lt_succ_self _

theorem methodRef_yields (hP : Shortens P) (h : WellFormed P V a)
    {definer name returnType : String} {parameters : List String} (hd : P definer) (hn : P name)
    (hr : P returnType) (hp : ∀ p ∈ parameters, P p) :
    Yields P V (methodRef definer name returnType parameters) a fun i b => i < b.methods.size := by
  unfold methodRef
  apply Yields.get
  cases hfind : a.methods.find? (methodKey definer name returnType parameters) with
  | some index => exact Yields.pure h (h.pools.methods _ _ hfind)
  | none =>
    apply (type_yields h hd).bind
    intro definer b hb _ hdefiner
    apply (proto_yields hP hb hr hp).bind
    intro signature c hc gc hsignature
    apply (string_yields hc hn).bind
    intro name d hd gd hname
    exact pushMethod_yields hd _ ⟨Nat.lt_of_lt_of_le hdefiner (gc.trans gd).types_le,
      Nat.lt_of_lt_of_le hsignature gd.protos_le, hname⟩

/-! ## Classes -/

/-- Classes may change as long as each of them fits. -/
theorem WellFormed.setClasses (h : WellFormed P V a) (classes : List Class)
    (hc : ∀ c ∈ classes, c ∈ a.classes ∨ c.Fits a) :
    WellFormed P V { a with classes } ∧ Grows a { a with classes } := by
  have hgrows : Grows a { a with classes } := { Grows.refl a with }
  refine ⟨h.grow hgrows { h.pools with } (fun _ => .inl) (fun _ => .inl) (fun _ => .inl)
    (fun _ => .inl) (fun _ => .inl) ?_ (.inl rfl), hgrows⟩
  exact fun c hmem => (hc c hmem).imp id fun hfits => hfits.mono hgrows

theorem superclass_yields (h : WellFormed P V a) {superclass : Option String}
    (hs : ∀ s ∈ superclass, P s) :
    Yields P V (superclass.mapM type) a fun s b => ∀ i ∈ s, i < b.types.size := by
  cases superclass with
  | none => exact Yields.pure h (by simp)
  | some s =>
    have hmap : (some s).mapM type = type s >>= fun i => Pure.pure (some i) := by
      rw [Option.mapM_some, map_eq_pure_bind]
    rw [hmap]
    apply (type_yields h (hs s rfl)).bind
    intro i b hb _ hi
    exact Yields.pure hb (by simpa using hi)

theorem addClass_yields (h : WellFormed P V a) {descriptor : String} {superclass : Option String}
    (hd : P descriptor) (hs : ∀ s ∈ superclass, P s) :
    Yields P V (addClass descriptor superclass) a fun i b => i < b.classes.length := by
  apply (type_yields h hd).bind
  intro index b hb _ hindex
  apply (superclass_yields hb hs).bind
  intro superclass c hc gc hsuper
  have hfits : Class.Fits c { type := index, flags := 1, superclass } :=
    ⟨Nat.lt_of_lt_of_le hindex gc.types_le, (by decide : 1 < 4294967296), hsuper, by simp, by simp⟩
  have hclasses : ∀ x ∈ c.classes ++ [{ type := index, flags := 1, superclass }],
      x ∈ c.classes ∨ x.Fits c := by
    intro x hx
    rcases List.mem_append.mp hx with hx | hx
    · exact .inl hx
    · exact .inr (List.mem_singleton.mp hx ▸ hfits)
  obtain ⟨hwell, hgrows⟩ := hc.setClasses _ hclasses
  refine ⟨hwell, hgrows, ?_⟩
  show c.classes.length < (c.classes ++ [_]).length
  simp

/-- A change of one class that keeps it fitting. -/
theorem modifyClass_yields (h : WellFormed P V a) {handle : Nat} {change : Class → Class}
    (hchange : ∀ c : Class, c.Fits a → (change c).Fits a) :
    Yields P V (modifyClass handle change) a fun _ _ => True := by
  have hclasses : ∀ c ∈ a.classes.modify handle change, c ∈ a.classes ∨ c.Fits a := by
    intro c hc
    obtain ⟨i, hi⟩ := List.mem_iff_getElem?.mp hc
    rw [List.getElem?_modify] at hi
    obtain ⟨old, hold, rfl⟩ := Option.map_eq_some_iff.mp hi
    have hmem : old ∈ a.classes := List.mem_of_getElem? hold
    split
    · exact .inr (hchange old (h.classes old hmem))
    · exact .inl hmem
  obtain ⟨hwell, hgrows⟩ := h.setClasses _ hclasses
  exact ⟨hwell, hgrows, trivial⟩

theorem implement_yields (h : WellFormed P V a) (handle : Nat) {descriptor : String}
    (hd : P descriptor) : Yields P V (implement handle descriptor) a fun _ _ => True := by
  apply (type_yields h hd).bind
  intro index b hb _ hindex
  apply modifyClass_yields hb
  intro c ⟨htype, hflags, hsuper, hinterfaces, hmethods⟩
  refine ⟨htype, hflags, hsuper, ?_, hmethods⟩
  intro i hi
  rcases List.mem_append.mp hi with hi | hi
  · exact hinterfaces i hi
  · exact List.mem_singleton.mp hi ▸ hindex

theorem setClassFlags_yields (h : WellFormed P V a) (handle : Nat) (flags : UInt32) :
    Yields P V (setClassFlags handle flags.toNat) a fun _ _ => True := by
  apply modifyClass_yields h
  intro c ⟨htype, _, hrest⟩
  exact ⟨htype, flags.toNat_lt, hrest⟩

theorem classDescriptor_holds (h : WellFormed P V a) {handle : Nat} {descriptor : String}
    (hd : a.classDescriptor? handle = some descriptor) : P descriptor := by
  unfold classDescriptor? at hd
  obtain ⟨c, -, hd⟩ := Option.bind_eq_some_iff.mp hd
  obtain ⟨name, -, hd⟩ := Option.bind_eq_some_iff.mp hd
  exact h.strings descriptor (List.mem_of_getElem? hd)

/-- A class may be given a method, on either list. -/
theorem Class.Fits.addMethod {c : Class} {m : Method} (hc : c.Fits a) (hm : m.Fits a)
    (direct : Bool) :
    (if direct then { c with direct := c.direct ++ [m] }
      else { c with virtual := c.virtual ++ [m] } : Class).Fits a := by
  obtain ⟨htype, hflags, hsuper, hinterfaces, hmethods⟩ := hc
  have hmore : ∀ x ∈ c.direct ++ c.virtual ++ [m], x.Fits a := by
    intro x hx
    rcases List.mem_append.mp hx with hx | hx
    · exact hmethods x hx
    · exact List.mem_singleton.mp hx ▸ hm
  cases direct with
  | true =>
    refine ⟨htype, hflags, hsuper, hinterfaces, fun x hx => hmore x ?_⟩
    simp only [if_true, List.mem_append] at hx ⊢
    exact or_right_comm.mp hx
  | false =>
    refine ⟨htype, hflags, hsuper, hinterfaces, fun x hx => hmore x ?_⟩
    rwa [List.append_assoc]

theorem defineMethod_yields (hP : Shortens P) (h : WellFormed P V a) (handle : Nat)
    {name returnType : String} {parameters : List String} (hn : P name) (hr : P returnType)
    (hp : ∀ p ∈ parameters, P p) (flags : MethodFlagSet) (code : Option (List UInt16)) :
    Yields P V (defineMethod handle name returnType parameters flags code) a
      fun i b => ∀ index ∈ i, index < b.methods.size := by
  unfold defineMethod
  apply Yields.get
  cases hdefiner : a.classDescriptor? handle with
  | none => exact Yields.pure h (by simp)
  | some definer =>
    apply (methodRef_yields hP h (classDescriptor_holds h hdefiner) hn hr hp).bind
    intro index b hb _ hindex
    have hmethod : Method.Fits b ⟨index, flags, code⟩ := ⟨hindex, flags.2⟩
    apply (modifyClass_yields hb fun c hc => hc.addMethod hmethod _).bind
    intro _ c hc gc _
    refine Yields.pure hc ?_
    intro j hj
    obtain rfl : index = j := Option.some.inj hj
    exact Nat.lt_of_lt_of_le hindex gc.methods_le

end

/-! ## Runs -/

/-- A call of the assembler. -/
inductive Step where
  | version (text : String)
  | string (s : String)
  | type (descriptor : String)
  | proto (returnType : String) (parameters : List String)
  | fieldRef (definer name fieldType : String)
  | methodRef (definer name returnType : String) (parameters : List String)
  | addClass (descriptor : String) (superclass : Option String)
  | implement (handle : Nat) (descriptor : String)
  | setClassFlags (handle : Nat) (flags : UInt32)
  | defineMethod (handle : Nat) (name returnType : String) (parameters : List String)
    (flags : MethodFlagSet) (code : Option (List UInt16))

namespace Step

/-- Makes the call; what it returns is an index or a handle, if anything. -/
def run : Step → Assemble (Option Nat)
  | .version text => do
    setVersion text
    return none
  | .string s => some <$> Assembler.string s
  | .type descriptor => some <$> Assembler.type descriptor
  | .proto returnType parameters => some <$> Assembler.proto returnType parameters
  | .fieldRef definer name fieldType => some <$> Assembler.fieldRef definer name fieldType
  | .methodRef definer name returnType parameters =>
    some <$> Assembler.methodRef definer name returnType parameters
  | .addClass descriptor superclass => some <$> Assembler.addClass descriptor superclass
  | .implement handle descriptor => do
    Assembler.implement handle descriptor
    return none
  | .setClassFlags handle flags => do
    Assembler.setClassFlags handle flags.toNat
    return none
  | .defineMethod handle name returnType parameters flags code =>
    Assembler.defineMethod handle name returnType parameters flags code

/-- The strings, names and descriptors of a call. -/
def texts : Step → List String
  | .version _ => []
  | .string s => [s]
  | .type descriptor => [descriptor]
  | .proto returnType parameters => returnType :: parameters
  | .fieldRef definer name fieldType => [definer, name, fieldType]
  | .methodRef definer name returnType parameters => definer :: name :: returnType :: parameters
  | .addClass descriptor superclass => descriptor :: superclass.toList
  | .implement _ descriptor => [descriptor]
  | .setClassFlags _ _ => []
  | .defineMethod _ name returnType parameters _ _ => name :: returnType :: parameters

/-- The version that a call sets. -/
def version? : Step → Option String
  | .version text => some text
  | _ => none

end Step

/-- The version digits that a text stands for. -/
def versionDigits (text : String) : List UInt8 :=
  let digits := (Utf8.encode text).take 3
  digits ++ List.replicate (3 - digits.length) 0x30

/-- The version that is set last; the file is written with it. -/
def lastVersion? (steps : List Step) : Option String := (steps.filterMap Step.version?).getLast?

/-- What a sequence of calls leads to. -/
def ofSteps (steps : List Step) : Assembler :=
  steps.foldl (fun a step => (step.run.run a).2) {}

variable {P : String → Prop} {V : List UInt8 → Prop} {a : Assembler}

theorem Yields.map {α β : Type} {m : Assemble α} {Q : α → Assembler → Prop} (f : α → β)
    (h : Yields P V m a Q) : Yields P V (f <$> m) a fun _ _ => True := by
  rw [map_eq_pure_bind]
  exact h.bind fun _ _ hb _ _ => Yields.pure hb trivial

theorem step_yields (hP : Shortens P) (h : WellFormed P V a) {step : Step}
    (htexts : ∀ s ∈ step.texts, P s) (hversion : ∀ v ∈ step.version?, V (versionDigits v)) :
    Yields P V step.run a fun _ _ => True := by
  cases step with
  | version text =>
    have hgrows : Grows a { a with version := versionDigits text } := { Grows.refl a with }
    refine ⟨h.grow hgrows { h.pools with } (fun _ => .inl) (fun _ => .inl) (fun _ => .inl)
      (fun _ => .inl) (fun _ => .inl) (fun _ => .inl) (.inr (hversion text rfl)), hgrows, trivial⟩
  | string s => exact (string_yields h (htexts s (by simp [Step.texts]))).map some
  | type descriptor => exact (type_yields h (htexts descriptor (by simp [Step.texts]))).map some
  | proto returnType parameters =>
    simp only [Step.texts, List.forall_mem_cons] at htexts
    exact (proto_yields hP h htexts.1 htexts.2).map some
  | fieldRef definer name fieldType =>
    simp only [Step.texts, List.forall_mem_cons] at htexts
    exact (fieldRef_yields h htexts.1 htexts.2.1 htexts.2.2.1).map some
  | methodRef definer name returnType parameters =>
    simp only [Step.texts, List.forall_mem_cons] at htexts
    exact (methodRef_yields hP h htexts.1 htexts.2.1 htexts.2.2.1 htexts.2.2.2).map some
  | addClass descriptor superclass =>
    simp only [Step.texts, List.forall_mem_cons, Option.mem_toList] at htexts
    exact (addClass_yields h htexts.1 htexts.2).map some
  | implement handle descriptor =>
    apply (implement_yields h handle (htexts descriptor (by simp [Step.texts]))).bind
    exact fun _ _ hb _ _ => Yields.pure hb trivial
  | setClassFlags handle flags =>
    apply (setClassFlags_yields h handle flags).bind
    exact fun _ _ hb _ _ => Yields.pure hb trivial
  | defineMethod handle name returnType parameters flags code =>
    simp only [Step.texts, List.forall_mem_cons] at htexts
    obtain ⟨hwell, hgrows, -⟩ :=
      defineMethod_yields hP h handle htexts.1 htexts.2.1 htexts.2.2 flags code
    exact ⟨hwell, hgrows, trivial⟩

/-- **Every run leads to a well-formed assembler.** Of the versions only the last one counts. -/
theorem wellFormed_ofSteps (hP : Shortens P) {steps : List Step} (hstart : V [0x30, 0x33, 0x35])
    (htexts : ∀ step ∈ steps, ∀ s ∈ step.texts, P s)
    (hversion : ∀ v ∈ lastVersion? steps, V (versionDigits v)) :
    WellFormed P V (ofSteps steps) := by
  induction steps using List.reverseRecOn generalizing V with
  | nil =>
    exact ⟨⟨.empty, .empty, .empty, .empty⟩, by simp [ofSteps], by simp [ofSteps],
      by simp [ofSteps], by simp [ofSteps], by simp [ofSteps], by simp [ofSteps], hstart⟩
  | append_singleton steps step ih =>
    have htexts' : ∀ step ∈ steps, ∀ s ∈ step.texts, P s :=
      fun step hstep => htexts step (List.mem_append_left _ hstep)
    have hstep : ∀ s ∈ step.texts, P s := htexts step (by simp)
    have last : ofSteps (steps ++ [step]) = (step.run.run (ofSteps steps)).2 := by
      rw [ofSteps, List.foldl_append]
      rfl
    rw [last]
    rw [lastVersion?, List.filterMap_append, List.getLast?_append] at hversion
    cases hv : step.version? with
    | none =>
      simp only [List.filterMap_cons, hv, List.filterMap_nil, List.getLast?_nil,
        Option.none_or] at hversion
      exact (step_yields hP (ih hstart htexts' hversion) hstep (by simp [hv])).1
    | some text =>
      -- whatever the version was before, it is set now
      have before : WellFormed P (fun _ => True) (ofSteps steps) :=
        ih trivial htexts' fun _ _ => trivial
      have after := (step_yields hP before hstep fun _ _ => trivial).1
      simp only [List.filterMap_cons, hv, List.filterMap_nil, List.getLast?_singleton,
        Option.some_or] at hversion
      cases step with
      | version text' =>
        cases hv
        exact { after with version := hversion text rfl }
      | _ => cases hv

end Assembler

end PermissionAudit
