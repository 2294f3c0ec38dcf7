import Mathlib.Data.List.Forall2
import PermissionAudit.Proofs.Dex.Assembler.Key
import PermissionAudit.Proofs.Dex.Assembler.Steps
import PermissionAudit.Proofs.Sequence.Checked

/-!
What the indices of an assembler stand for. An index leads to an entry of its table, and
the indices stored there lead on, down to strings. Since tables grow at their ends only, an
index that stands for something goes on to stand for it.
-/

namespace PermissionAudit.Assembler

/-! ## Growth -/

/-- Later on a class may have more interfaces, more methods and other flags. -/
structure Class.GrowsTo (c d : Class) : Prop where
  type : d.type = c.type
  superclass : d.superclass = c.superclass
  interfaces : c.interfaces <+: d.interfaces
  direct : c.direct <+: d.direct
  virtual : c.virtual <+: d.virtual

/-- Tables got longer at their ends, and classes grew where they are. -/
structure Extends (a b : Assembler) : Prop extends Grows a b where
  classes : ∀ (handle : Nat) (c : Class), a.classes[handle]? = some c →
    ∃ d, b.classes[handle]? = some d ∧ c.GrowsTo d

theorem Class.GrowsTo.refl (c : Class) : c.GrowsTo c :=
  ⟨rfl, rfl, List.prefix_rfl, List.prefix_rfl, List.prefix_rfl⟩

theorem Class.GrowsTo.trans {c d e : Class} (h : c.GrowsTo d) (k : d.GrowsTo e) : c.GrowsTo e :=
  ⟨k.type.trans h.type, k.superclass.trans h.superclass, h.interfaces.trans k.interfaces,
    h.direct.trans k.direct, h.virtual.trans k.virtual⟩

namespace Extends

variable {a b c : Assembler}

/-- Classes did not change. -/
theorem of_grows (g : Grows a b) (h : b.classes = a.classes) : Extends a b :=
  ⟨g, fun _ c hc => ⟨c, h ▸ hc, .refl c⟩⟩

theorem refl (a : Assembler) : Extends a a := of_grows (.refl a) rfl

theorem trans (h : Extends a b) (k : Extends b c) : Extends a c := by
  refine ⟨h.toGrows.trans k.toGrows, fun handle cl hc => ?_⟩
  obtain ⟨d, hd, hcd⟩ := h.classes handle cl hc
  obtain ⟨e, he, hde⟩ := k.classes handle d hd
  exact ⟨e, he, hcd.trans hde⟩

end Extends

/-! ## Meanings -/

/-- What an index may stand for, in words. -/
inductive Meaning where
  | string (s : String)
  | type (descriptor : String)
  | proto (returnType : String) (parameters : List String)
  | field (definer name fieldType : String)
  | method (definer name returnType : String) (parameters : List String)
  /-- A class that is declared, by its handle. -/
  | declared (descriptor : String) (superclass : Option String)

/-- The tables that indices lead into. -/
inductive Table where
  | strings | types | protos | fields | methods | classes

def Meaning.table : Meaning → Table
  | .string _ => .strings
  | .type _ => .types
  | .proto _ _ => .protos
  | .field _ _ _ => .fields
  | .method _ _ _ _ => .methods
  | .declared _ _ => .classes

def HasType (a : Assembler) (index : Nat) (descriptor : String) : Prop :=
  ∃ name, a.types.items[index]? = some name ∧ a.strings.items[name]? = some descriptor

def Proto.Spells (a : Assembler) (p : Proto) (returnType : String) (parameters : List String) :
    Prop :=
  a.strings.items[p.shorty]? = some (String.ofList ((returnType :: parameters).map shortyChar)) ∧
    a.HasType p.returnType returnType ∧ List.Forall₂ a.HasType p.parameters parameters

def Member.SpellsField (a : Assembler) (m : Member) (definer name fieldType : String) : Prop :=
  a.HasType m.definer definer ∧ a.HasType m.signature fieldType ∧ a.strings.items[m.name]? = some name

def Member.SpellsMethod (a : Assembler) (m : Member) (definer name returnType : String)
    (parameters : List String) : Prop :=
  a.HasType m.definer definer ∧
    (∃ p, a.protos.items[m.signature]? = some p ∧ p.Spells a returnType parameters) ∧
    a.strings.items[m.name]? = some name

def Class.Spells (a : Assembler) (c : Class) (descriptor : String) (superclass : Option String) :
    Prop :=
  a.HasType c.type descriptor ∧ Option.Rel a.HasType c.superclass superclass

/-- The index stands for the meaning, as the tables are. -/
def Denotes (a : Assembler) (index : Nat) : Meaning → Prop
  | .string s => a.strings.items[index]? = some s
  | .type descriptor => a.HasType index descriptor
  | .proto returnType parameters =>
    ∃ p, a.protos.items[index]? = some p ∧ p.Spells a returnType parameters
  | .field definer name fieldType =>
    ∃ f, a.fields[index]? = some f ∧ f.SpellsField a definer name fieldType
  | .method definer name returnType parameters =>
    ∃ m, a.methods.items[index]? = some m ∧ m.SpellsMethod a definer name returnType parameters
  | .declared descriptor superclass =>
    ∃ c, a.classes[index]? = some c ∧ c.Spells a descriptor superclass

/-! ## Meanings stay -/

section

variable {a b : Assembler}

theorem Grows.getElem?_strings (g : Grows a b) {i : Nat} {s : String}
    (h : a.strings.items[i]? = some s) : b.strings.items[i]? = some s :=
  getElem?_of_prefix g.strings h

theorem HasType.mono (g : Grows a b) {i : Nat} {descriptor : String}
    (h : a.HasType i descriptor) : b.HasType i descriptor := by
  obtain ⟨name, hname, hs⟩ := h
  exact ⟨name, getElem?_of_prefix g.types hname, g.getElem?_strings hs⟩

theorem Proto.Spells.mono (g : Grows a b) {p : Proto} {r : String} {ps : List String}
    (h : p.Spells a r ps) : p.Spells b r ps := by
  obtain ⟨shorty, returned, parameters⟩ := h
  exact ⟨g.getElem?_strings shorty, returned.mono g,
    parameters.imp fun _ _ hp => hp.mono g⟩

theorem Member.SpellsMethod.mono (g : Grows a b) {m : Member} {c n r : String}
    {ps : List String} (h : m.SpellsMethod a c n r ps) : m.SpellsMethod b c n r ps := by
  obtain ⟨definer, ⟨p, hp, spells⟩, name⟩ := h
  exact ⟨definer.mono g, ⟨p, getElem?_of_prefix g.protos hp, spells.mono g⟩,
    g.getElem?_strings name⟩

theorem Denotes.mono (g : Extends a b) {i : Nat} {m : Meaning} (h : a.Denotes i m) :
    b.Denotes i m := by
  cases m with
  | string s => exact g.getElem?_strings h
  | type descriptor => exact HasType.mono g.toGrows h
  | proto r ps =>
    obtain ⟨p, hp, spells⟩ := h
    exact ⟨p, getElem?_of_prefix g.protos hp, spells.mono g.toGrows⟩
  | field c n t =>
    obtain ⟨f, hf, definer, fieldType, name⟩ := h
    exact ⟨f, getElem?_of_prefix g.fields hf, definer.mono g.toGrows, fieldType.mono g.toGrows,
      g.getElem?_strings name⟩
  | method c n r ps =>
    obtain ⟨m, hm, spells⟩ := h
    exact ⟨m, getElem?_of_prefix g.methods hm, spells.mono g.toGrows⟩
  | declared d s =>
    obtain ⟨c, hc, type, superclass⟩ := h
    obtain ⟨c', hc', grown⟩ := g.classes i c hc
    refine ⟨c', hc', ?_, ?_⟩
    · rw [grown.type]
      exact type.mono g.toGrows
    · rw [grown.superclass]
      generalize c.superclass = index at superclass ⊢
      cases superclass with
      | none => exact .none
      | some hs => exact .some (hs.mono g.toGrows)

end

/-! ## Meanings are unique -/

section

variable {a : Assembler}

theorem HasType.unique {i : Nat} {d d' : String} (h : a.HasType i d) (h' : a.HasType i d') :
    d = d' := by
  obtain ⟨name, hname, hs⟩ := h
  obtain ⟨name', hname', hs'⟩ := h'
  obtain rfl := Option.some.inj (hname.symm.trans hname')
  exact Option.some.inj (hs.symm.trans hs')

theorem Proto.Spells.unique {p : Proto} {r r' : String} {ps ps' : List String}
    (h : p.Spells a r ps) (h' : p.Spells a r' ps') : r = r' ∧ ps = ps' := by
  have types : Relator.RightUnique a.HasType := fun _ _ _ => HasType.unique
  exact ⟨h.2.1.unique h'.2.1, List.right_unique_forall₂' types h.2.2 h'.2.2⟩

theorem Member.SpellsMethod.unique {m : Member} {c c' n n' r r' : String} {ps ps' : List String}
    (h : m.SpellsMethod a c n r ps) (h' : m.SpellsMethod a c' n' r' ps') :
    c = c' ∧ n = n' ∧ r = r' ∧ ps = ps' := by
  obtain ⟨definer, ⟨p, hp, spells⟩, name⟩ := h
  obtain ⟨definer', ⟨p', hp', spells'⟩, name'⟩ := h'
  obtain rfl := Option.some.inj (hp.symm.trans hp')
  exact ⟨definer.unique definer', Option.some.inj (name.symm.trans name'), spells.unique spells'⟩

/-- In one table an index stands for one thing. -/
theorem Denotes.unique {i : Nat} {m m' : Meaning} (same : m.table = m'.table)
    (h : a.Denotes i m) (h' : a.Denotes i m') : m = m' := by
  cases m with
  | string s =>
    cases m' with
    | string s' => rw [Option.some.inj (Eq.trans (Eq.symm h) h')]
    | _ => cases same
  | type d =>
    cases m' with
    | type d' => rw [HasType.unique h h']
    | _ => cases same
  | proto r ps =>
    cases m' with
    | proto r' ps' =>
      obtain ⟨p, hp, spells⟩ := h
      obtain ⟨p', hp', spells'⟩ := h'
      obtain rfl := Option.some.inj (hp.symm.trans hp')
      obtain ⟨rfl, rfl⟩ := spells.unique spells'
      rfl
    | _ => cases same
  | field c n t =>
    cases m' with
    | field c' n' t' =>
      obtain ⟨f, hf, definer, fieldType, name⟩ := h
      obtain ⟨f', hf', definer', fieldType', name'⟩ := h'
      obtain rfl := Option.some.inj (hf.symm.trans hf')
      rw [definer.unique definer', fieldType.unique fieldType',
        Option.some.inj (name.symm.trans name')]
    | _ => cases same
  | method c n r ps =>
    cases m' with
    | method c' n' r' ps' =>
      obtain ⟨m, hm, spells⟩ := h
      obtain ⟨m', hm', spells'⟩ := h'
      obtain rfl := Option.some.inj (hm.symm.trans hm')
      obtain ⟨rfl, rfl, rfl, rfl⟩ := Member.SpellsMethod.unique spells spells'
      rfl
    | _ => cases same
  | declared d s =>
    cases m' with
    | declared d' s' =>
      obtain ⟨c, hc, type, superclass⟩ := h
      obtain ⟨c', hc', type', superclass'⟩ := h'
      obtain rfl := Option.some.inj (hc.symm.trans hc')
      rw [type.unique type']
      generalize c.superclass = index at superclass superclass'
      cases superclass with
      | none =>
        cases superclass'
        rfl
      | some hs =>
        cases superclass' with
        | some hs' => rw [hs.unique hs']
    | _ => cases same

end

end PermissionAudit.Assembler
