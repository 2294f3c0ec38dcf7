import PermissionAudit.Proofs.Dex.Assembler.Meaning

/-!
Interning is exact. The map of each pool is the inverse of its table: nothing is in a table
twice, and looking something up gives the one index that stands for it. A call looks its key
up first and then asks for the parts, which changes other pools but not the one it looked
into; so the key is still new when the item is added. When other pools grow, the items of a
pool still have the keys they had.

Prototypes and methods are looked up by keys, and keys of odd descriptors may coincide. An
index then stands for something with the same key. Descriptors that satisfy `D` and method names
that satisfy `N` are kept track of, so that this can be made exact where keys can be taken apart.
-/

namespace PermissionAudit

/-! ## Pools by key -/

namespace Pool

variable {α : Type} {p : Pool α} {key : String} {item : α} {HasKey : α → String → Prop}

/-- The map is the inverse of the table: each item has a key, and it is found by its keys at its
place and nowhere else. -/
structure Indexed (p : Pool α) (HasKey : α → String → Prop) : Prop where
  located : p.indices.Locates p.items HasKey
  keyed : ∀ x ∈ p.items, ∃ key, HasKey x key

theorem Indexed.empty : ({} : Pool α).Indexed HasKey := ⟨.nil, by simp⟩

theorem Indexed.push (h : p.Indexed HasKey) (new : p.find? key = none) (hkey : HasKey item key)
    (unique : ∀ {k}, HasKey item k → k = key) : (p.push key item).Indexed HasKey := by
  refine ⟨h.located.push new fun k => ⟨unique, fun same => same ▸ hkey⟩, fun x hx => ?_⟩
  rcases mem_items_push hx with hx | rfl
  · exact h.keyed x hx
  · exact ⟨key, hkey⟩

/-- What the keys are may be said anew, as long as items keep their keys and have no others. -/
theorem Indexed.mono (h : p.Indexed HasKey) {HasKey' : α → String → Prop}
    (keep : ∀ {x k}, HasKey x k → HasKey' x k)
    (unique : ∀ {x k k'}, HasKey' x k → HasKey' x k' → k = k') : p.Indexed HasKey' := by
  refine ⟨h.located.congr fun x hx k => ⟨keep, fun hk => ?_⟩, fun x hx => ?_⟩
  · obtain ⟨k', hk'⟩ := h.keyed x hx
    exact unique hk (keep hk') ▸ hk'
  · obtain ⟨k, hk⟩ := h.keyed x hx
    exact ⟨k, keep hk⟩

/-- No item is in the table twice. -/
theorem Indexed.nodup (h : p.Indexed HasKey) : p.items.Nodup := by
  rw [List.nodup_iff_getElem?_ne_getElem?]
  intro i j hij hj same
  have hi := List.getElem?_eq_getElem (Nat.lt_trans hij hj)
  obtain ⟨key, hkey⟩ := h.keyed _ (List.mem_of_getElem? hi)
  have atI := (h.located key i).mpr ⟨_, hi, hkey⟩
  have atJ := (h.located key j).mpr ⟨_, same.symm.trans hi, hkey⟩
  have := Option.some.inj (atI.symm.trans atJ)
  omega

theorem getElem?_items_push (p : Pool α) (key : String) (item : α) :
    (p.push key item).items[p.size]? = some item :=
  List.getElem?_concat_length

end Pool

namespace Assembler

/-! ## What was asked for -/

/-- Class and parameter descriptors satisfy `D`, and method names satisfy `N`. -/
def Meaning.Admitted (D N : String → Prop) : Meaning → Prop
  | .proto _ parameters => ∀ p ∈ parameters, D p
  | .method definer name _ parameters => D definer ∧ N name ∧ ∀ p ∈ parameters, D p
  | .declared descriptor _ => D descriptor
  | _ => True

/-- Meanings that interning takes for one another. -/
inductive Meaning.Alike : Meaning → Meaning → Prop where
  | refl (m : Meaning) : Alike m m
  | proto {r r' : String} {ps ps' : List String} (h : protoKey r ps = protoKey r' ps') :
    Alike (.proto r ps) (.proto r' ps')
  | method {c c' n n' r r' : String} {ps ps' : List String}
    (h : methodKey c n r ps = methodKey c' n' r' ps') :
    Alike (.method c n r ps) (.method c' n' r' ps')

/-- The index stands for what was asked for, or for something alike. -/
def Answers (D N : String → Prop) (a : Assembler) (index : Nat) (asked : Meaning) : Prop :=
  ∃ held, held.Alike asked ∧ held.Admitted D N ∧ a.Denotes index held

theorem Answers.mono {D N : String → Prop} {a b : Assembler} (g : Extends a b) {index : Nat}
    {asked : Meaning} (h : Answers D N a index asked) : Answers D N b index asked := by
  obtain ⟨held, alike, admitted, denotes⟩ := h
  exact ⟨held, alike, admitted, denotes.mono g⟩

/-! ## The invariant -/

section

variable (D N : String → Prop) (a : Assembler)

/-- The string is the descriptor. -/
def HasTypeKey (name : Nat) (descriptor : String) : Prop :=
  a.strings.items[name]? = some descriptor

/-- The prototype spells something that has the key. -/
def HasProtoKey (p : Proto) (key : String) : Prop :=
  ∃ r ps, protoKey r ps = key ∧ (Meaning.proto r ps).Admitted D N ∧ p.Spells a r ps

def HasMethodKey (m : Member) (key : String) : Prop :=
  ∃ c n r ps, methodKey c n r ps = key ∧ (Meaning.method c n r ps).Admitted D N ∧
    m.SpellsMethod a c n r ps

/-- The map of each pool is the inverse of its table. -/
structure Interned : Prop where
  strings : a.strings.Indexed fun s key => s = key
  types : a.types.Indexed a.HasTypeKey
  protos : a.protos.Indexed (HasProtoKey D N a)
  methods : a.methods.Indexed (HasMethodKey D N a)
  classes : ∀ c ∈ a.classes, ∃ d, D d ∧ a.HasType c.type d

end

variable {D N : String → Prop} {a b : Assembler} {key key' : String}

theorem HasTypeKey.unique {name : Nat} (h : a.HasTypeKey name key) (h' : a.HasTypeKey name key') :
    key = key' :=
  Option.some.inj (Eq.trans (Eq.symm h) h')

theorem HasProtoKey.mono (g : Grows a b) {p : Proto} (h : HasProtoKey D N a p key) :
    HasProtoKey D N b p key := by
  obtain ⟨r, ps, key, admitted, spells⟩ := h
  exact ⟨r, ps, key, admitted, spells.mono g⟩

theorem HasProtoKey.unique {p : Proto} (h : HasProtoKey D N a p key)
    (h' : HasProtoKey D N a p key') : key = key' := by
  obtain ⟨r, ps, rfl, -, spells⟩ := h
  obtain ⟨r', ps', rfl, -, spells'⟩ := h'
  obtain ⟨rfl, rfl⟩ := spells.unique spells'
  rfl

theorem HasMethodKey.mono (g : Grows a b) {m : Member} (h : HasMethodKey D N a m key) :
    HasMethodKey D N b m key := by
  obtain ⟨c, n, r, ps, key, admitted, spells⟩ := h
  exact ⟨c, n, r, ps, key, admitted, spells.mono g⟩

theorem HasMethodKey.unique {m : Member} (h : HasMethodKey D N a m key)
    (h' : HasMethodKey D N a m key') : key = key' := by
  obtain ⟨c, n, r, ps, rfl, -, spells⟩ := h
  obtain ⟨c', n', r', ps', rfl, -, spells'⟩ := h'
  obtain ⟨rfl, rfl, rfl, rfl⟩ := spells.unique spells'
  rfl

/-- After growth only the pools that changed have to be looked at, and the classes that did. -/
theorem Interned.grow (h : Interned D N a) (g : Extends a b)
    (strings : b.strings = a.strings ∨ b.strings.Indexed fun s key => s = key)
    (types : b.types = a.types ∨ b.types.Indexed b.HasTypeKey)
    (protos : b.protos = a.protos ∨ b.protos.Indexed (HasProtoKey D N b))
    (methods : b.methods = a.methods ∨ b.methods.Indexed (HasMethodKey D N b))
    (classes : ∀ c ∈ b.classes, (∃ old ∈ a.classes, c.type = old.type) ∨
      ∃ d, D d ∧ b.HasType c.type d) : Interned D N b where
  strings := strings.elim (fun same => same ▸ h.strings) id
  types := types.elim (fun same => same ▸ h.types.mono g.getElem?_strings HasTypeKey.unique) id
  protos := protos.elim
    (fun same => same ▸ h.protos.mono (HasProtoKey.mono g.toGrows) HasProtoKey.unique) id
  methods := methods.elim
    (fun same => same ▸ h.methods.mono (HasMethodKey.mono g.toGrows) HasMethodKey.unique) id
  classes c hc := by
    refine (classes c hc).elim (fun ⟨old, ho, same⟩ => ?_) id
    obtain ⟨d, hd, type⟩ := h.classes old ho
    exact ⟨d, hd, same ▸ type.mono g.toGrows⟩

/-! ## One call at a time -/

/-- From an interned assembler the call leads to an interned one, by growth, and the result
satisfies `Q` there. -/
def Interns {α : Type} (D N : String → Prop) (m : Assemble α) (a : Assembler)
    (Q : α → Assembler → Prop) : Prop :=
  Interned D N (m.run a).2 ∧ Extends a (m.run a).2 ∧ Q (m.run a).1 (m.run a).2

theorem Interns.pure {α : Type} {Q : α → Assembler → Prop} {x : α} (h : Interned D N a)
    (hx : Q x a) : Interns D N (Pure.pure x) a Q :=
  ⟨h, .refl a, hx⟩

theorem Interns.bind {α β : Type} {m : Assemble α} {f : α → Assemble β}
    {Q : α → Assembler → Prop} {R : β → Assembler → Prop} (hm : Interns D N m a Q)
    (hf : ∀ x b, Interned D N b → Extends a b → Q x b → Interns D N (f x) b R) :
    Interns D N (m >>= f) a R := by
  obtain ⟨interned, grown, result⟩ := hm
  obtain ⟨interned', grown', result'⟩ := hf _ _ interned grown result
  exact ⟨interned', grown.trans grown', result'⟩

theorem Interns.get {α : Type} {f : Assembler → Assemble α} {Q : α → Assembler → Prop}
    (h : Interns D N (f a) a Q) : Interns D N (MonadState.get >>= f) a Q := h

theorem Interns.imp {α : Type} {m : Assemble α} {Q R : α → Assembler → Prop}
    (h : Interns D N m a Q) (hR : ∀ x b, Q x b → R x b) : Interns D N m a R :=
  ⟨h.1, h.2.1, hR _ _ h.2.2⟩

/-- The tables looked up by composed keys did not change. -/
def Aside (a b : Assembler) : Prop := b.protos = a.protos ∧ b.methods = a.methods

theorem Aside.trans {c : Assembler} (h : Aside a b) (k : Aside b c) : Aside a c :=
  ⟨k.1.trans h.1, k.2.trans h.2⟩

theorem string_interns (h : Interned D N a) (s : String) :
    Interns D N (string s) a fun i b =>
      b.strings.items[i]? = some s ∧ b.types = a.types ∧ Aside a b := by
  simp only [Interns, string, modifyGet, MonadStateOf.modifyGet, StateT.modifyGet, StateT.run]
  cases hfind : a.strings.find? s with
  | some index =>
    obtain ⟨_, held, rfl⟩ := (h.strings.located s index).mp hfind
    exact ⟨h, .refl a, held, rfl, rfl, rfl⟩
  | none =>
    have grown : Extends a { a with strings := a.strings.push s s } :=
      .of_grows { Grows.refl a with strings := List.prefix_append _ _ } rfl
    exact ⟨h.grow grown (.inr (h.strings.push hfind rfl Eq.symm)) (.inl rfl) (.inl rfl)
      (.inl rfl) (fun c hc => .inl ⟨c, hc, rfl⟩), grown, Pool.getElem?_items_push _ _ _, rfl, rfl,
      rfl⟩

theorem pushType_interns (h : Interned D N a) {key : String} {name : Nat}
    (new : a.types.find? key = none) (hname : a.strings.items[name]? = some key) :
    Interns D N (modifyGet fun a => (a.types.size, { a with types := a.types.push key name })) a
      fun i b => b.HasType i key ∧ Aside a b := by
  have grown : Extends a { a with types := a.types.push key name } :=
    .of_grows { Grows.refl a with types := List.prefix_append _ _ } rfl
  have types := h.types.push new hname fun other => HasTypeKey.unique other hname
  exact ⟨h.grow grown (.inl rfl) (.inr types) (.inl rfl) (.inl rfl)
    (fun c hc => .inl ⟨c, hc, rfl⟩), grown, ⟨name, Pool.getElem?_items_push _ _ _, hname⟩, rfl,
    rfl⟩

theorem type_interns (h : Interned D N a) (descriptor : String) :
    Interns D N (type descriptor) a fun i b => b.HasType i descriptor ∧ Aside a b := by
  unfold type
  apply Interns.get
  cases hfind : a.types.find? descriptor with
  | some index => exact Interns.pure h ⟨(h.types.located _ _).mp hfind, rfl, rfl⟩
  | none =>
    apply (string_interns h descriptor).bind
    intro name b hb _ ⟨hname, types, aside⟩
    -- asking for the string left the types alone
    have new : b.types.find? descriptor = none := types ▸ hfind
    exact (pushType_interns hb new hname).imp fun _ _ hi => ⟨hi.1, aside.trans hi.2⟩

theorem types_interns (h : Interned D N a) (descriptors : List String) :
    Interns D N (descriptors.mapM type) a fun is b =>
      List.Forall₂ b.HasType is descriptors ∧ Aside a b := by
  induction descriptors generalizing a with
  | nil => exact Interns.pure h ⟨.nil, rfl, rfl⟩
  | cons d rest ih =>
    rw [List.mapM_cons]
    apply (type_interns h d).bind
    intro i b hb _ ⟨hi, aside⟩
    apply (ih hb).bind
    intro is c hc grown ⟨his, aside'⟩
    exact Interns.pure hc ⟨.cons (hi.mono grown.toGrows) his, aside.trans aside'⟩

/-! ## Prototypes, fields and methods -/

theorem pushProto_interns (h : Interned D N a) {r : String} {ps : List String}
    (new : a.protos.find? (protoKey r ps) = none) (hp : ∀ p ∈ ps, D p) {p : Proto}
    (spells : p.Spells a r ps) :
    Interns D N (modifyGet fun a =>
        (a.protos.size, { a with protos := a.protos.push (protoKey r ps) p })) a
      fun i b => Answers D N b i (.proto r ps) ∧ b.methods = a.methods := by
  have grown : Extends a { a with protos := a.protos.push (protoKey r ps) p } :=
    .of_grows { Grows.refl a with protos := List.prefix_append _ _ } rfl
  have hkey : HasProtoKey D N a p (protoKey r ps) := ⟨r, ps, rfl, hp, spells⟩
  have protos := (h.protos.push new hkey fun other => other.unique hkey).mono
    (HasProtoKey.mono grown.toGrows) HasProtoKey.unique
  exact ⟨h.grow grown (.inl rfl) (.inl rfl) (.inr protos) (.inl rfl)
    (fun c hc => .inl ⟨c, hc, rfl⟩), grown,
    ⟨.proto r ps, .refl _, hp, p, Pool.getElem?_items_push _ _ _, spells.mono grown.toGrows⟩, rfl⟩

theorem proto_interns (h : Interned D N a) {r : String} {ps : List String} (hp : ∀ p ∈ ps, D p) :
    Interns D N (proto r ps) a fun i b =>
      Answers D N b i (.proto r ps) ∧ b.methods = a.methods := by
  unfold proto
  apply Interns.get
  cases hfind : a.protos.find? (protoKey r ps) with
  | some index =>
    obtain ⟨p, hp, r', ps', key, admitted, spells⟩ := (h.protos.located _ _).mp hfind
    exact Interns.pure h ⟨⟨.proto r' ps', .proto key, admitted, p, hp, spells⟩, rfl⟩
  | none =>
    apply (string_interns h _).bind
    rintro shorty b hb - ⟨hshorty, -, aside⟩
    apply (type_interns hb r).bind
    intro returned c hc gc ⟨hreturned, aside'⟩
    apply (types_interns hc ps).bind
    intro types d hd gd ⟨htypes, aside''⟩
    -- asking for the parts left the prototypes alone
    obtain ⟨protos, methods⟩ := (aside.trans aside').trans aside''
    have new : d.protos.find? (protoKey r ps) = none := protos ▸ hfind
    have spells : Proto.Spells d ⟨shorty, returned, types⟩ r ps :=
      ⟨(gc.trans gd).getElem?_strings hshorty, hreturned.mono gd.toGrows, htypes⟩
    exact (pushProto_interns hd new hp spells).imp fun _ _ hi => ⟨hi.1, hi.2.trans methods⟩

theorem fieldRef_interns (h : Interned D N a) (c n t : String) :
    Interns D N (fieldRef c n t) a fun i b => b.Denotes i (.field c n t) := by
  apply (type_interns h c).bind
  rintro definer b hb - ⟨hdefiner, -⟩
  apply (type_interns hb t).bind
  rintro fieldType c hc gc ⟨htype, -⟩
  apply (string_interns hc n).bind
  rintro name d hd gd ⟨hname, -⟩
  have grown : Extends d { d with fields := d.fields ++ [⟨definer, fieldType, name⟩] } :=
    .of_grows { Grows.refl d with fields := List.prefix_append _ _ } rfl
  have definer' := hdefiner.mono ((gc.trans gd).trans grown).toGrows
  have type' := htype.mono (gd.trans grown).toGrows
  exact ⟨hd.grow grown (.inl rfl) (.inl rfl) (.inl rfl) (.inl rfl)
    (fun c hc => .inl ⟨c, hc, rfl⟩), grown,
    ⟨definer, fieldType, name⟩, List.getElem?_concat_length, definer', type', hname⟩

theorem pushMethod_interns (h : Interned D N a) {c n r : String} {ps : List String}
    (new : a.methods.find? (methodKey c n r ps) = none) {r' : String} {ps' : List String}
    (same : protoKey r' ps' = protoKey r ps)
    (admitted : (Meaning.method c n r' ps').Admitted D N) {m : Member}
    (spells : m.SpellsMethod a c n r' ps') :
    Interns D N (modifyGet fun a =>
        (a.methods.size, { a with methods := a.methods.push (methodKey c n r ps) m })) a
      fun i b => Answers D N b i (.method c n r ps) := by
  have grown : Extends a { a with methods := a.methods.push (methodKey c n r ps) m } :=
    .of_grows { Grows.refl a with methods := List.prefix_append _ _ } rfl
  have key : methodKey c n r' ps' = methodKey c n r ps := by rw [methodKey, same, ← methodKey]
  have hkey : HasMethodKey D N a m (methodKey c n r ps) := ⟨c, n, r', ps', key, admitted, spells⟩
  have methods := (h.methods.push new hkey fun other => other.unique hkey).mono
    (HasMethodKey.mono grown.toGrows) HasMethodKey.unique
  exact ⟨h.grow grown (.inl rfl) (.inl rfl) (.inl rfl) (.inr methods)
    (fun c hc => .inl ⟨c, hc, rfl⟩), grown,
    .method c n r' ps', .method key, admitted, m, Pool.getElem?_items_push _ _ _,
    spells.mono grown.toGrows⟩

theorem methodRef_interns (h : Interned D N a) {c n r : String} {ps : List String} (hc : D c)
    (hn : N n) (hp : ∀ p ∈ ps, D p) :
    Interns D N (methodRef c n r ps) a fun i b => Answers D N b i (.method c n r ps) := by
  unfold methodRef
  apply Interns.get
  cases hfind : a.methods.find? (methodKey c n r ps) with
  | some index =>
    obtain ⟨m, hm, c', n', r', ps', key, admitted, spells⟩ := (h.methods.located _ _).mp hfind
    exact Interns.pure h ⟨.method c' n' r' ps', .method key, admitted, m, hm, spells⟩
  | none =>
    apply (type_interns h c).bind
    rintro definer b hb - ⟨hdefiner, -, methods⟩
    apply (proto_interns hb hp).bind
    intro signature d hd gd ⟨⟨held, alike, admitted, denotes⟩, methods'⟩
    apply (string_interns hd n).bind
    rintro name e he ge ⟨hname, -, -, methods''⟩
    have new : e.methods.find? (methodKey c n r ps) = none := by
      rwa [methods'', methods', methods]
    have definer' := hdefiner.mono (gd.trans ge).toGrows
    have denotes' := denotes.mono ge
    cases alike with
    | refl =>
      exact pushMethod_interns he new rfl ⟨hc, hn, hp⟩ ⟨definer', denotes', hname⟩
    | proto same =>
      exact pushMethod_interns he new same ⟨hc, hn, admitted⟩ ⟨definer', denotes', hname⟩

/-! ## Classes -/

/-- Classes may grow, and ones of admitted types may be added. -/
theorem Interned.setClasses (h : Interned D N a) (classes : List Class)
    (grows : ∀ (i : Nat) (c : Class), a.classes[i]? = some c →
      ∃ d, classes[i]? = some d ∧ c.GrowsTo d)
    (hc : ∀ c ∈ classes, (∃ old ∈ a.classes, c.type = old.type) ∨ ∃ d, D d ∧ a.HasType c.type d) :
    Interned D N { a with classes } ∧ Extends a { a with classes } := by
  have grown : Extends a { a with classes } := ⟨{ Grows.refl a with }, grows⟩
  exact ⟨h.grow grown (.inl rfl) (.inl rfl) (.inl rfl) (.inl rfl) hc, grown⟩

theorem superclass_interns (h : Interned D N a) (superclass : Option String) :
    Interns D N (superclass.mapM type) a fun s b => Option.Rel b.HasType s superclass := by
  cases superclass with
  | none => exact Interns.pure h .none
  | some s =>
    have hmap : (some s).mapM type = type s >>= fun i => Pure.pure (some i) := by
      rw [Option.mapM_some, map_eq_pure_bind]
    rw [hmap]
    apply (type_interns h s).bind
    rintro i b hb - ⟨hi, -⟩
    exact Interns.pure hb (.some hi)

theorem addClass_interns (h : Interned D N a) {d : String} (hd : D d) (s : Option String) :
    Interns D N (addClass d s) a fun i b => b.Denotes i (.declared d s) := by
  apply (type_interns h d).bind
  rintro index b hb - ⟨hindex, -⟩
  apply (superclass_interns hb s).bind
  intro superclass c hc gc hsuper
  have type : c.HasType index d := hindex.mono gc.toGrows
  let new : Class := { type := index, flags := 1, superclass }
  have admitted : ∀ x ∈ c.classes ++ [new],
      (∃ old ∈ c.classes, x.type = old.type) ∨ ∃ d, D d ∧ c.HasType x.type d := by
    intro x hx
    rcases List.mem_append.mp hx with hx | hx
    · exact .inl ⟨x, hx, rfl⟩
    · exact .inr (List.mem_singleton.mp hx ▸ ⟨d, hd, type⟩)
  obtain ⟨interned, grown⟩ := hc.setClasses (c.classes ++ [new])
    (fun _ old hold => ⟨old, getElem?_of_prefix (List.prefix_append _ _) hold, .refl old⟩) admitted
  exact ⟨interned, grown, new, List.getElem?_concat_length, type, hsuper⟩

/-- A change that lets a class grow. -/
theorem modifyClass_interns (h : Interned D N a) (handle : Nat) {change : Class → Class}
    (hchange : ∀ c : Class, c.GrowsTo (change c)) :
    Interns D N (modifyClass handle change) a fun _ _ => True := by
  have grows (i : Nat) (c : Class) (hc : a.classes[i]? = some c) :
      ∃ d, (a.classes.modify handle change)[i]? = some d ∧ c.GrowsTo d := by
    rw [List.getElem?_modify, hc]
    split
    · exact ⟨change c, rfl, hchange c⟩
    · exact ⟨c, rfl, .refl c⟩
  have kept : ∀ c ∈ a.classes.modify handle change, ∃ old ∈ a.classes, c.type = old.type := by
    intro c hc
    obtain ⟨i, hi⟩ := List.mem_iff_getElem?.mp hc
    obtain ⟨old, hold, -⟩ := Option.map_eq_some_iff.mp (List.getElem?_modify .. ▸ hi)
    obtain ⟨d, hd, grown⟩ := grows i old hold
    obtain rfl := Option.some.inj (hi.symm.trans hd)
    exact ⟨old, List.mem_of_getElem? hold, grown.type⟩
  obtain ⟨interned, grown⟩ := h.setClasses _ grows fun c hc => .inl (kept c hc)
  exact ⟨interned, grown, trivial⟩

theorem implement_interns (h : Interned D N a) (handle : Nat) (descriptor : String) :
    Interns D N (implement handle descriptor) a fun _ _ => True := by
  apply (type_interns h descriptor).bind
  intro index b hb _ _
  apply modifyClass_interns hb
  exact fun c => ⟨rfl, rfl, List.prefix_append _ _, List.prefix_rfl, List.prefix_rfl⟩

theorem setClassFlags_interns (h : Interned D N a) (handle flags : Nat) :
    Interns D N (setClassFlags handle flags) a fun _ _ => True :=
  modifyClass_interns h handle fun _ =>
    ⟨rfl, rfl, List.prefix_rfl, List.prefix_rfl, List.prefix_rfl⟩

theorem classDescriptor?_eq_some_iff {handle : Nat} {descriptor : String} :
    a.classDescriptor? handle = some descriptor ↔
      ∃ c, a.classes[handle]? = some c ∧ a.HasType c.type descriptor := by
  simp only [classDescriptor?, Option.bind_eq_bind, Option.bind_eq_some_iff, HasType]

theorem Interned.classDescriptor_holds (h : Interned D N a) {handle : Nat} {descriptor : String}
    (hd : a.classDescriptor? handle = some descriptor) : D descriptor := by
  obtain ⟨c, hc, type⟩ := classDescriptor?_eq_some_iff.mp hd
  obtain ⟨d, holds, type'⟩ := h.classes c (List.mem_of_getElem? hc)
  exact type.unique type' ▸ holds

theorem defineMethod_interns (h : Interned D N a) (handle : Nat) {n r : String}
    {ps : List String} (hn : N n) (hp : ∀ p ∈ ps, D p) (flags : Nat)
    (code : Option (List UInt16)) :
    Interns D N (defineMethod handle n r ps flags code) a fun result b =>
      Option.Rel (Answers D N b) result
        ((a.classDescriptor? handle).map fun definer => .method definer n r ps) := by
  unfold defineMethod
  apply Interns.get
  cases hdefiner : a.classDescriptor? handle with
  | none => exact Interns.pure h .none
  | some definer =>
    apply (methodRef_interns h (h.classDescriptor_holds hdefiner) hn hp).bind
    intro index b hb _ answers
    have hchange (c : Class) : c.GrowsTo (if Dex.MethodFlags.isDirect flags
        then { c with direct := c.direct ++ [⟨index, flags, code⟩] }
        else { c with virtual := c.virtual ++ [⟨index, flags, code⟩] }) := by
      split
      · exact ⟨rfl, rfl, List.prefix_rfl, List.prefix_append _ _, List.prefix_rfl⟩
      · exact ⟨rfl, rfl, List.prefix_rfl, List.prefix_rfl, List.prefix_append _ _⟩
    apply (modifyClass_interns hb handle hchange).bind
    intro _ c hc gc _
    exact Interns.pure hc (.some (answers.mono gc))

end Assembler

end PermissionAudit
