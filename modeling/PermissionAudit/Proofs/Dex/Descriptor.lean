import PermissionAudit.Proofs.Machine.Text
import PermissionAudit.Proofs.Registry.Origin

/-!
Descriptors and types. A descriptor is `V`, or up to 255 brackets and then a letter
or a class name between `L` and `;`. Each names one type and is what that type
prints as, so reading and printing undo each other on the types that have a
descriptor. A class has one name in a program: a call of a method names the class
as it is registered.
-/

namespace PermissionAudit

namespace Descriptor

/-- The letters of the primitive types that have values. -/
def letters : List Char := ['Z', 'B', 'S', 'C', 'I', 'J', 'F', 'D']

/-- What may stand behind the brackets. Any name will do that is not empty, also one with
semicolons and brackets. -/
inductive IsElement : List Char → Prop where
  | letter {c : Char} (h : c ∈ letters) : IsElement [c]
  | named {name : List Char} (h : name ≠ []) : IsElement ('L' :: (name ++ [';']))

/-- The texts that are descriptors. -/
inductive IsDescriptor : List Char → Prop where
  | void : IsDescriptor ['V']
  | brackets {dimensions : Nat} (h : dimensions ≤ 255) {element : List Char}
      (he : IsElement element) : IsDescriptor (List.replicate dimensions '[' ++ element)

/-- Types that arrays may have as elements: neither `void` nor an array, and a class has a name. -/
def IsValue : Descriptor → Prop
  | void | array _ _ => False
  | object name => name ≠ ""
  | _ => True

/-- Types that have a descriptor. -/
def IsProper : Descriptor → Prop
  | void => True
  | array dimensions element => 1 ≤ dimensions ∧ dimensions ≤ 255 ∧ element.IsValue
  | type => type.IsValue

instance : DecidablePred IsValue
  | void | array _ _ => .isFalse id
  | object name => inferInstanceAs (Decidable (name ≠ ""))
  | boolean | byte | short | char | int | long | float | double => .isTrue trivial

instance : DecidablePred IsProper
  | void | boolean | byte | short | char | int | long | float | double => .isTrue trivial
  | array dimensions element =>
    inferInstanceAs (Decidable (1 ≤ dimensions ∧ dimensions ≤ 255 ∧ element.IsValue))
  | object name => inferInstanceAs (Decidable (name ≠ ""))

/-! ## Elements -/

theorem toList_text_object (name : String) :
    (object name).text.toList = 'L' :: (name.toList ++ [';']) := by
  simp [text, String.toList_append]

theorem toList_text_array (dimensions : Nat) (element : Descriptor) :
    (array dimensions element).text.toList =
      List.replicate dimensions '[' ++ element.text.toList := by
  simp [text, String.toList_append]

/-- A class is read from its name between `L` and `;`. -/
theorem parseElement?_named {name : List Char} (h : name ≠ []) :
    parseElement? ('L' :: (name ++ [';'])) = some (object (String.ofList name)) := by
  have long : 1 ≤ name.length := List.length_pos_of_ne_nil h
  have body : (name ++ [';']).getLast? = some ';' ∧ 2 ≤ (name ++ [';']).length := by
    simpa using long
  show (if _ then _ else _) = _
  rw [if_pos body, List.dropLast_concat]

theorem parseElement?_text {t : Descriptor} (h : t.IsValue) :
    parseElement? t.text.toList = some t := by
  cases t with
  | void => exact h.elim
  | array dimensions element => exact h.elim
  | object name =>
    have named : name.toList ≠ [] := by
      intro empty
      exact h (String.toList_eq_nil_iff.mp empty)
    rw [toList_text_object, parseElement?_named named, String.ofList_toList]
  | _ => rfl

/-- The type behind the brackets prints as the text that it is read from. -/
theorem value_of_parseElement? {cs : List Char} {t : Descriptor} (h : parseElement? cs = some t) :
    t.IsValue ∧ t.text.toList = cs := by
  unfold parseElement? at h
  split at h
  case h_9 body =>
    split at h
    · rename_i closed
      obtain ⟨last, long⟩ := closed
      obtain ⟨name, rfl⟩ := List.getLast?_eq_some_iff.mp last
      rw [List.dropLast_concat] at h
      obtain rfl := Option.some.inj h
      refine ⟨?_, by rw [toList_text_object, String.toList_ofList]⟩
      intro empty
      have none : name = [] := by simpa using congrArg String.toList empty
      simp [none] at long
    · cases h
  case h_10 => cases h
  all_goals
    obtain rfl := Option.some.inj h
    exact ⟨trivial, rfl⟩

theorem isElement_text {t : Descriptor} (h : t.IsValue) : IsElement t.text.toList := by
  cases t with
  | void => exact h.elim
  | array dimensions element => exact h.elim
  | object name =>
    rw [toList_text_object]
    refine .named ?_
    intro empty
    exact h (String.toList_eq_nil_iff.mp empty)
  | _ => exact .letter (by decide)

theorem exists_value_of_isElement {cs : List Char} (h : IsElement cs) :
    ∃ t, parseElement? cs = some t := by
  cases h with
  | letter hc =>
    simp only [letters, List.mem_cons, List.not_mem_nil, or_false] at hc
    rcases hc with rfl | rfl | rfl | rfl | rfl | rfl | rfl | rfl <;> exact ⟨_, rfl⟩
  | named h => exact ⟨_, parseElement?_named h⟩

/-- An element does not start with a bracket, so the brackets before it can be counted. -/
theorem takeWhile_brackets {cs : List Char} (h : IsElement cs) (dimensions : Nat) :
    (List.replicate dimensions '[' ++ cs).takeWhile (· = '[') = List.replicate dimensions '[' := by
  have first : cs.takeWhile (· = '[') = [] := by
    cases h with
    | letter hc =>
      have other : ¬ '[' ∈ letters := by decide
      refine List.takeWhile_cons_of_neg ?_
      intro bracket
      exact other (of_decide_eq_true bracket ▸ hc)
    | named => rfl
  rw [List.takeWhile_append_of_pos (by simp), first, List.append_nil]

/-! ## Descriptors -/

/-- The type that is read: the element itself, or an array of it. -/
def withDimensions (dimensions : Nat) (element : Descriptor) : Descriptor :=
  if dimensions = 0 then element else array dimensions element

theorem toList_text_withDimensions (dimensions : Nat) (element : Descriptor) :
    (withDimensions dimensions element).text.toList =
      List.replicate dimensions '[' ++ element.text.toList := by
  cases dimensions with
  | zero => rfl
  | succ n => exact toList_text_array (n + 1) element

theorem IsValue.isProper {t : Descriptor} (h : t.IsValue) : t.IsProper := by
  cases t with
  | array dimensions element => exact h.elim
  | void => trivial
  | _ => exact h

theorem IsValue.isProper_withDimensions {element : Descriptor} (h : element.IsValue)
    {dimensions : Nat} (small : dimensions ≤ 255) :
    (withDimensions dimensions element).IsProper := by
  cases dimensions with
  | zero => exact h.isProper
  | succ n => exact ⟨Nat.succ_pos n, small, h⟩

/-- Types other than `void` are an element with a number of dimensions. -/
theorem IsProper.cases {t : Descriptor} (h : t.IsProper) :
    t = void ∨ ∃ dimensions element, dimensions ≤ 255 ∧ element.IsValue ∧
      t = withDimensions dimensions element := by
  cases t with
  | void => exact .inl rfl
  | array dimensions element =>
    obtain ⟨some, small, value⟩ := h
    exact .inr ⟨dimensions, element, small, value, (if_neg (by omega)).symm⟩
  | _ =>
    refine .inr ⟨0, _, Nat.zero_le _, ?_, rfl⟩
    exact h

/-- Brackets are counted, and the rest is read as the element. -/
theorem parse?_brackets {s : String} {dimensions : Nat} {element : List Char} {t : Descriptor}
    (hs : s.toList = List.replicate dimensions '[' ++ element) (small : dimensions ≤ 255)
    (he : parseElement? element = some t) : parse? s = some (withDimensions dimensions t) := by
  obtain ⟨value, printed⟩ := value_of_parseElement? he
  have counted : (s.toList.takeWhile (· = '[')).length = dimensions := by
    rw [hs, takeWhile_brackets (printed ▸ isElement_text value), List.length_replicate]
  have rest : s.toList.drop dimensions = element := by
    rw [hs, List.drop_left' (List.length_replicate ..)]
  have other : s.toList ≠ ['V'] := by
    intro void
    rw [void] at counted rest
    obtain rfl : dimensions = 0 := counted.symm
    obtain rfl : element = ['V'] := rest.symm
    cases he
  rw [parse?]
  dsimp only
  rw [if_neg other, counted, if_neg (by rw [dimensionLimit]; omega), rest, he]
  rfl

/-- What is read from a text that is not `V`. -/
theorem exists_element_of_parse? {s : String} {t : Descriptor} (h : parse? s = some t)
    (other : s.toList ≠ ['V']) :
    ∃ dimensions element, dimensions ≤ 255 ∧ element.IsValue ∧
      t = withDimensions dimensions element ∧
      s.toList = List.replicate dimensions '[' ++ element.text.toList := by
  rw [parse?] at h
  dsimp only at h
  rw [if_neg other] at h
  split at h
  · cases h
  · rename_i small
    obtain ⟨element, he, rfl⟩ := Option.map_eq_some_iff.mp h
    obtain ⟨value, printed⟩ := value_of_parseElement? he
    refine ⟨_, element, by rw [dimensionLimit] at small; omega, value, rfl, ?_⟩
    have brackets : s.toList.take (s.toList.takeWhile (· = '[')).length =
        List.replicate (s.toList.takeWhile (· = '[')).length '[' := by
      rw [← List.prefix_iff_eq_take.mp (List.takeWhile_prefix _)]
      refine List.eq_replicate_iff.mpr ⟨rfl, ?_⟩
      intro c hc
      simpa using List.all_eq_true.mp List.all_takeWhile c hc
    rw [printed, ← brackets, List.take_append_drop]

/-- A text is read as the type that prints as it. -/
theorem parse?_eq_some_iff {s : String} {t : Descriptor} :
    parse? s = some t ↔ t.IsProper ∧ t.text = s := by
  constructor
  · intro h
    by_cases void : s.toList = ['V']
    · rw [parse?, if_pos void] at h
      obtain rfl := Option.some.inj h
      exact ⟨trivial, String.toList_injective void.symm⟩
    · obtain ⟨dimensions, element, small, value, rfl, hs⟩ := exists_element_of_parse? h void
      refine ⟨value.isProper_withDimensions small, String.toList_injective ?_⟩
      rw [toList_text_withDimensions, hs]
  · intro h
    obtain ⟨proper, rfl⟩ := h
    rcases proper.cases with rfl | ⟨dimensions, element, small, value, rfl⟩
    · rfl
    · exact parse?_brackets (toList_text_withDimensions dimensions element) small
        (parseElement?_text value)

theorem IsProper.isDescriptor_text {t : Descriptor} (h : t.IsProper) :
    IsDescriptor t.text.toList := by
  rcases h.cases with rfl | ⟨dimensions, element, small, value, rfl⟩
  · exact .void
  · rw [toList_text_withDimensions]
    exact .brackets small (isElement_text value)

/-- Types are read from descriptors, and from nothing else. -/
theorem exists_parse?_iff {s : String} : (∃ t, parse? s = some t) ↔ IsDescriptor s.toList := by
  constructor
  · intro h
    obtain ⟨t, ht⟩ := h
    obtain ⟨proper, rfl⟩ := parse?_eq_some_iff.mp ht
    exact proper.isDescriptor_text
  · intro h
    generalize hs : s.toList = cs at h
    cases h with
    | void => exact ⟨void, if_pos hs⟩
    | brackets small he =>
      obtain ⟨element, helement⟩ := exists_value_of_isElement he
      exact ⟨_, parse?_brackets hs small helement⟩

end Descriptor

/-! ## Names of classes -/

/-- The method at an index has a name and belongs to a type. -/
def Dex.Declares (dex : Dex) (index : Nat) (definer : Descriptor) (name : String) : Prop :=
  ∃ id, dex.methods[index]? = some id ∧ dex.type id.definer = .ok definer ∧
    dex.string id.name = .ok name

/-- A call of a method of a class names the class. -/
theorem Dex.callTarget_object {dex : Dex} {index : Nat} {className name : String}
    (h : dex.Declares index (.object className) name) (dispatch : Dispatch) :
    dex.callTarget index dispatch =
      .ok ⟨(Descriptor.object className).sourceName, name, dispatch⟩ := by
  obtain ⟨id, hid, hdefiner, hname⟩ := h
  exact callTarget_eq_ok_iff.mpr ⟨id, _, hid, hdefiner, .object className, hname, rfl⟩

/-- Arrays share one class. -/
theorem Dex.callTarget_array {dex : Dex} {index dimensions : Nat} {element : Descriptor}
    {name : String} (h : dex.Declares index (.array dimensions element) name)
    (dispatch : Dispatch) :
    dex.callTarget index dispatch = .ok ⟨"java.lang.reflect.Array", name, dispatch⟩ := by
  obtain ⟨id, hid, hdefiner, hname⟩ := h
  exact callTarget_eq_ok_iff.mpr ⟨id, _, hid, hdefiner, .array dimensions element, hname, rfl⟩

/-- **Descriptors and types.** A text is read if and only if it is a descriptor; the type that is
read prints as the text, and the types that have a descriptor are read back from it. Reading may
cut the text at bytes. A call of a method of a class names the class by its type, and so as it is
registered. -/
theorem descriptor_round_trip :
    (∀ s, (∃ t, Descriptor.parse? s = some t) ↔ Descriptor.IsDescriptor s.toList) ∧
      (∀ s t, Descriptor.parse? s = some t → t.text = s) ∧
      (∀ t : Descriptor, t.IsProper → Descriptor.parse? t.text = some t) ∧
      (∀ s, Machine.parseDescriptor s = .ok (Descriptor.parse? s)) ∧
      (∀ (dex : Dex) index definer name dispatch, dex.Declares index definer name →
        (∀ className, definer = .object className →
          dex.callTarget index dispatch = .ok ⟨definer.sourceName, name, dispatch⟩) ∧
        (∀ dimensions element, definer = .array dimensions element →
          dex.callTarget index dispatch = .ok ⟨"java.lang.reflect.Array", name, dispatch⟩)) ∧
      ∀ dexs exclusions, ∀ c ∈ (Registry.ofDexs dexs exclusions).value.classes,
        ∃ d ∈ Registry.definitions dexs, ∃ type, d.1.type d.2.type = .ok type ∧
          c.name = type.sourceName ∧
          ∀ className, type = .object className →
            ∀ (dex : Dex) index name dispatch, dex.Declares index type name →
              dex.callTarget index dispatch = .ok ⟨c.name, name, dispatch⟩ := by
  refine ⟨fun s => Descriptor.exists_parse?_iff, ?_, ?_, Machine.parseDescriptor_eq, ?_, ?_⟩
  · intro s t h
    exact (Descriptor.parse?_eq_some_iff.mp h).2
  · intro t proper
    exact Descriptor.parse?_eq_some_iff.mpr ⟨proper, rfl⟩
  · intro dex index definer name dispatch h
    constructor
    · intro className object
      subst object
      exact Dex.callTarget_object h dispatch
    · intro dimensions element array
      subst array
      exact Dex.callTarget_array h dispatch
  · intro dexs exclusions c hc
    obtain ⟨origins, registered⟩ := Registry.exists_registered dexs exclusions
    obtain ⟨-, d, hd, from_definition⟩ := registered.exists_definition_of_mem hc
    obtain ⟨type, htype, hname⟩ := from_definition.name
    refine ⟨d, hd, type, htype, hname.symm, ?_⟩
    intro className object dex index name dispatch h
    subst object
    rw [← hname]
    exact Dex.callTarget_object h dispatch

/-- A file with the class `a/é` and one method of it. -/
def accentDex : Dex where
  header := ⟨35, 0, [], 0, 0, 0, ⟨0, 0⟩, ⟨0, 0⟩, ⟨0, 0⟩, ⟨0, 0⟩, ⟨0, 0⟩, ⟨0, 0⟩⟩
  raw := [5, 0x4C, 0x61, 0x2F, 0xC3, 0xA9, 0x3B, 0, 1, 0x66, 0]
  strings := [0, 8]
  types := [0]
  protos := []
  fields := []
  methods := [⟨0, 0, 1⟩]
  classes := [⟨0, 0, none, [], none⟩]

/-- The class is registered and called by one name; brackets and semicolons may be part of a
name. -/
theorem accentDex_called_by_name :
    Descriptor.parse? "[[L[é;;" = some (.array 2 (.object "[é;")) ∧
      (∃ c ∈ (Registry.ofDexs [accentDex] []).value.classes, c.name = "a.é" ∧
        accentDex.callTarget 0 .virtual = .ok ⟨c.name, "f", .virtual⟩) := by
  obtain ⟨-, -, read, -, -, called⟩ := descriptor_round_trip
  have object : accentDex.type 0 = .ok (.object "a/é") := by decide +kernel
  have declared : accentDex.Declares 0 (.object "a/é") "f" :=
    ⟨⟨0, 0, 1⟩, rfl, object, by decide +kernel⟩
  refine ⟨read (.array 2 (.object "[é;")) (by decide), ?_⟩
  obtain ⟨c, hc⟩ : ∃ c, (Registry.ofDexs [accentDex] []).value.classes = [c] := ⟨_, rfl⟩
  have mem : c ∈ (Registry.ofDexs [accentDex] []).value.classes := hc ▸ List.mem_singleton_self c
  obtain ⟨d, hd, type, htype, hname, target⟩ := called _ _ c mem
  obtain rfl : d = (accentDex, ⟨0, 0, none, [], none⟩) := by
    simpa [Registry.definitions, accentDex] using hd
  obtain rfl : type = .object "a/é" := Except.ok.inj (htype.symm.trans object)
  exact ⟨c, mem, hname.trans (by decide), target _ rfl _ _ _ _ declared⟩

end PermissionAudit
