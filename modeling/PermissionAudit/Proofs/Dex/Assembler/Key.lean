import PermissionAudit.Dex.Assembler.Basic
import PermissionAudit.Proofs.Dex.Descriptor
import PermissionAudit.Proofs.Text.Fields

/-!
Keys tell prototypes and methods apart. A key is one text made of several, with little
between them; it can be taken apart again where each part shows its own end. The
descriptors of classes and parameters do: they end with a letter, or with the first
semicolon. No descriptor begins with a parenthesis, which therefore ends the parameters, and
the return type is what is left.
-/

namespace PermissionAudit.Assembler

/-- Brackets, then the letter of a primitive type, or a name between `L` and the first `;`. -/
inductive IsDelimited : List Char → Prop where
  | letter {c : Char} (h : c ∈ 'V' :: Descriptor.letters) : IsDelimited [c]
  | named {name : List Char} (h : ';' ∉ name) : IsDelimited ('L' :: (name ++ [';']))
  | array {element : List Char} (h : IsDelimited element) : IsDelimited ('[' :: element)

theorem not_mem_letters : ∀ c ∈ ['L', '[', ')'], c ∉ 'V' :: Descriptor.letters := by
  simp [Descriptor.letters]

/-- A descriptor is known when it has been read, whatever follows it. -/
theorem IsDelimited.append_inj {cs ds s t : List Char} (hc : IsDelimited cs)
    (hd : IsDelimited ds) (h : cs ++ s = ds ++ t) : cs = ds ∧ s = t := by
  have noName := not_mem_letters 'L' (by decide)
  have noArray := not_mem_letters '[' (by decide)
  induction hc generalizing ds with
  | letter hl =>
    cases hd with
    | letter hl' =>
      obtain ⟨rfl, tail⟩ := List.cons.inj h
      exact ⟨rfl, tail⟩
    | named _ => exact absurd ((List.cons.inj h).1 ▸ hl) noName
    | array _ => exact absurd ((List.cons.inj h).1 ▸ hl) noArray
  | named hn =>
    cases hd with
    | letter hl' => exact absurd ((List.cons.inj h).1 ▸ hl') noName
    | named hn' =>
      simp only [List.cons_append, List.append_assoc, List.nil_append, List.cons.injEq,
        true_and] at h
      obtain ⟨rfl, rest⟩ := Fields.append_sep_inj hn hn' h
      exact ⟨rfl, rest⟩
    | array _ => exact absurd (List.cons.inj h).1 (by decide)
  | array _ ih =>
    cases hd with
    | letter hl' => exact absurd ((List.cons.inj h).1 ▸ hl') noArray
    | named _ => exact absurd (List.cons.inj h).1 (by decide)
    | array hd =>
      obtain ⟨rfl, rest⟩ := ih hd (List.cons.inj h).2
      exact ⟨rfl, rest⟩

/-- No descriptor begins with a parenthesis. -/
theorem IsDelimited.append_ne {cs s t : List Char} (hc : IsDelimited cs) : cs ++ s ≠ ')' :: t := by
  intro h
  cases hc with
  | letter hl => exact not_mem_letters ')' (by decide) ((List.cons.inj h).1 ▸ hl)
  | named _ => exact absurd (List.cons.inj h).1 (by decide)
  | array _ => exact absurd (List.cons.inj h).1 (by decide)

theorem flatMap_append_inj {ps ps' : List String} {s t : List Char}
    (hp : ∀ p ∈ ps, IsDelimited p.toList) (hp' : ∀ p ∈ ps', IsDelimited p.toList)
    (h : ps.flatMap String.toList ++ ')' :: s = ps'.flatMap String.toList ++ ')' :: t) :
    ps = ps' ∧ s = t := by
  induction ps generalizing ps' with
  | nil =>
    cases ps' with
    | nil => exact ⟨rfl, (List.cons.inj h).2⟩
    | cons p' rest' =>
      rw [List.flatMap_cons, List.append_assoc] at h
      exact absurd h.symm (hp' p' (by simp)).append_ne
  | cons p rest ih =>
    rw [List.flatMap_cons, List.append_assoc] at h
    cases ps' with
    | nil => exact absurd h (hp p (by simp)).append_ne
    | cons p' rest' =>
      rw [List.flatMap_cons, List.append_assoc] at h
      obtain ⟨first, later⟩ := (hp p (by simp)).append_inj (hp' p' (by simp)) h
      obtain ⟨rfl, tail⟩ := ih (fun q hq => hp q (by simp [hq]))
        (fun q hq => hp' q (by simp [hq])) later
      exact ⟨by rw [String.toList_inj.mp first], tail⟩

theorem toList_protoKey (returnType : String) (parameters : List String) :
    (protoKey returnType parameters).toList =
      '(' :: (parameters.flatMap String.toList ++ ')' :: returnType.toList) := by
  simp [protoKey, String.toList_join]

/-- The key of a prototype can be taken apart. -/
theorem protoKey_inj {r r' : String} {ps ps' : List String}
    (hp : ∀ p ∈ ps, IsDelimited p.toList) (hp' : ∀ p ∈ ps', IsDelimited p.toList)
    (h : protoKey r ps = protoKey r' ps') : r = r' ∧ ps = ps' := by
  have key := congrArg String.toList h
  rw [toList_protoKey, toList_protoKey] at key
  obtain ⟨parameters, returned⟩ := flatMap_append_inj hp hp' (List.cons.inj key).2
  exact ⟨String.toList_inj.mp returned, parameters⟩

-- a descriptor that runs on into the next one has the key of the two
example : protoKey "V" ["IJ"] = protoKey "V" ["I", "J"] := by decide

/-- The key of a method can be taken apart: the class shows its end, and the name ends at the
first parenthesis. -/
theorem methodKey_inj {c c' n n' r r' : String} {ps ps' : List String}
    (hc : IsDelimited c.toList) (hc' : IsDelimited c'.toList) (hn : '(' ∉ n.toList)
    (hn' : '(' ∉ n'.toList) (hp : ∀ p ∈ ps, IsDelimited p.toList)
    (hp' : ∀ p ∈ ps', IsDelimited p.toList) (h : methodKey c n r ps = methodKey c' n' r' ps') :
    c = c' ∧ n = n' ∧ r = r' ∧ ps = ps' := by
  have key := congrArg String.toList h
  simp only [methodKey, String.toList_append, List.append_assoc] at key
  obtain ⟨definer, key⟩ := hc.append_inj hc' key
  replace key := List.append_cancel_left key
  rw [toList_protoKey, toList_protoKey] at key
  obtain ⟨name, key⟩ := Fields.append_sep_inj hn hn' key
  obtain ⟨parameters, returned⟩ := flatMap_append_inj hp hp' key
  exact ⟨String.toList_inj.mp definer, String.toList_inj.mp name, String.toList_inj.mp returned,
    parameters⟩

end PermissionAudit.Assembler
