import PermissionAudit.Proofs.Dex.Assembler.Interning

/-!
Calls and the indices they return. Along a run an index goes on to stand for what it stood
for when it was returned. Where keys can be taken apart, two calls return the same index
exactly if they ask for the same prototype, or for the same method.
-/

namespace PermissionAudit.Assembler

variable {D N : String → Prop} {a : Assembler}

/-! ## Meanings and indices -/

/-- Looking something up in these tables comes before adding it. -/
def Table.IsInterned : Table → Prop
  | .fields | .classes => False
  | _ => True

theorem Interned.find?_string_iff (h : Interned D N a) {i : Nat} {s : String} :
    a.strings.indices.get? s = some i ↔ a.Denotes i (.string s) := by
  rw [h.strings.located s i]
  simp only [exists_eq_right]
  rfl

theorem Interned.find?_type_iff (h : Interned D N a) {i : Nat} {d : String} :
    a.types.indices.get? d = some i ↔ a.Denotes i (.type d) :=
  h.types.located d i

theorem Interned.find?_proto_iff (h : Interned D N a) {i : Nat} {key : String} :
    a.protos.indices.get? key = some i ↔
      ∃ r ps, a.Denotes i (.proto r ps) ∧ protoKey r ps = key := by
  rw [h.protos.located key i]
  constructor
  · rintro ⟨p, hp, r, ps, same, -, spells⟩
    exact ⟨r, ps, ⟨p, hp, spells⟩, same⟩
  · rintro ⟨r, ps, ⟨p, hp, spells⟩, same⟩
    -- what the prototype spells was asked for with its key
    obtain ⟨_, r', ps', -, admitted, spells'⟩ := h.protos.keyed p (List.mem_of_getElem? hp)
    obtain ⟨rfl, rfl⟩ := spells.unique spells'
    exact ⟨p, hp, r, ps, same, admitted, spells⟩

theorem Interned.find?_method_iff (h : Interned D N a) {i : Nat} {key : String} :
    a.methods.indices.get? key = some i ↔
      ∃ c n r ps, a.Denotes i (.method c n r ps) ∧ methodKey c n r ps = key := by
  rw [h.methods.located key i]
  constructor
  · rintro ⟨m, hm, c, n, r, ps, same, -, spells⟩
    exact ⟨c, n, r, ps, ⟨m, hm, spells⟩, same⟩
  · rintro ⟨c, n, r, ps, ⟨m, hm, spells⟩, same⟩
    obtain ⟨_, c', n', r', ps', -, admitted, spells'⟩ :=
      h.methods.keyed m (List.mem_of_getElem? hm)
    obtain ⟨rfl, rfl, rfl, rfl⟩ := spells.unique spells'
    exact ⟨m, hm, c, n, r, ps, same, admitted, spells⟩

/-- What is interned has one index. -/
theorem Interned.index_unique (h : Interned D N a) {i j : Nat} {m : Meaning}
    (interned : m.table.IsInterned) (hi : a.Denotes i m) (hj : a.Denotes j m) : i = j := by
  have position {found : Option Nat} (hi : found = some i) (hj : found = some j) : i = j :=
    Option.some.inj (hi.symm.trans hj)
  cases m with
  | string s => exact position (h.find?_string_iff.mpr hi) (h.find?_string_iff.mpr hj)
  | type d => exact position (h.find?_type_iff.mpr hi) (h.find?_type_iff.mpr hj)
  | proto r ps =>
    exact position (h.find?_proto_iff.mpr ⟨r, ps, hi, rfl⟩) (h.find?_proto_iff.mpr ⟨r, ps, hj, rfl⟩)
  | method c n r ps =>
    exact position (h.find?_method_iff.mpr ⟨c, n, r, ps, hi, rfl⟩)
      (h.find?_method_iff.mpr ⟨c, n, r, ps, hj, rfl⟩)
  | field c n t => exact interned.elim
  | declared d s => exact interned.elim

/-- Where keys can be taken apart, likeness is equality. -/
theorem Meaning.Alike.eq {m m' : Meaning} (h : m.Alike m')
    (hm : m.Admitted (IsDelimited ·.toList) ('(' ∉ ·.toList))
    (hm' : m'.Admitted (IsDelimited ·.toList) ('(' ∉ ·.toList)) : m = m' := by
  cases h with
  | refl => rfl
  | proto key =>
    obtain ⟨rfl, rfl⟩ := protoKey_inj hm hm' key
    rfl
  | method key =>
    obtain ⟨rfl, rfl, rfl, rfl⟩ :=
      methodKey_inj hm.1 hm'.1 hm.2.1 hm'.2.1 hm.2.2 hm'.2.2 key
    rfl

/-! ## Calls -/

namespace Step

/-- What a call asks for; a method is defined in the class that the handle stands for. -/
def asks (a : Assembler) : Step → Option Meaning
  | .string s => some (.string s)
  | .type descriptor => some (.type descriptor)
  | .proto returnType parameters => some (.proto returnType parameters)
  | .fieldRef definer name fieldType => some (.field definer name fieldType)
  | .methodRef definer name returnType parameters =>
    some (.method definer name returnType parameters)
  | .addClass descriptor superclass => some (.declared descriptor superclass)
  | .defineMethod handle name returnType parameters _ _ =>
    (a.classDescriptor? handle).map fun definer => .method definer name returnType parameters
  | .version _ | .implement _ _ | .setClassFlags _ _ => none

/-- The class and parameter descriptors of a call. -/
def descriptors : Step → List String
  | .proto _ parameters => parameters
  | .methodRef definer _ _ parameters => definer :: parameters
  | .addClass descriptor _ => [descriptor]
  | .defineMethod _ _ _ parameters _ _ => parameters
  | _ => []

def methodName? : Step → Option String
  | .methodRef _ name _ _ => some name
  | .defineMethod _ name _ _ _ _ => some name
  | _ => none

/-- Class and parameter descriptors satisfy `D`, and the method name satisfies `N`. -/
def Admitted (D N : String → Prop) (step : Step) : Prop :=
  (∀ d ∈ step.descriptors, D d) ∧ ∀ n ∈ step.methodName?, N n

end Step

theorem Interns.answer {m : Assemble Nat} {Q : Nat → Assembler → Prop} {asked : Meaning}
    (h : Interns D N m a Q) (hQ : ∀ i b, Q i b → Answers D N b i asked) :
    Interns D N (some <$> m) a fun result b => Option.Rel (Answers D N b) result (some asked) := by
  rw [map_eq_pure_bind]
  exact h.bind fun i b hb _ hi => Interns.pure hb (.some (hQ i b hi))

/-- A call returns an index for what it asks for. -/
theorem step_interns (h : Interned D N a) {step : Step} (admitted : step.Admitted D N) :
    Interns D N step.run a fun result b => Option.Rel (Answers D N b) result (step.asks a) := by
  have exactly {b : Assembler} {i : Nat} {m : Meaning} (hm : m.Admitted D N)
      (denotes : b.Denotes i m) : Answers D N b i m := ⟨m, .refl m, hm, denotes⟩
  obtain ⟨hd, hn⟩ := admitted
  cases step with
  | version text =>
    have grown : Extends a { a with version := versionDigits text } :=
      .of_grows { Grows.refl a with } rfl
    exact ⟨h.grow grown (.inl rfl) (.inl rfl) (.inl rfl) (.inl rfl)
      (fun c hc => .inl ⟨c, hc, rfl⟩), grown, .none⟩
  | string s => exact (string_interns h s).answer fun _ _ hi => exactly trivial hi.1
  | type d => exact (type_interns h d).answer fun _ _ hi => exactly trivial hi.1
  | proto r ps => exact (proto_interns h hd).answer fun _ _ hi => hi.1
  | fieldRef c n t => exact (fieldRef_interns h c n t).answer fun _ _ => exactly trivial
  | methodRef c n r ps =>
    obtain ⟨hc, hp⟩ := List.forall_mem_cons.mp hd
    exact (methodRef_interns h hc (hn n rfl) hp).answer fun _ _ => id
  | addClass d s =>
    have hd' : D d := hd d List.mem_cons_self
    exact (addClass_interns h hd' s).answer fun _ _ => exactly hd'
  | implement handle d =>
    apply (implement_interns h handle d).bind
    exact fun _ _ hb _ _ => Interns.pure hb .none
  | setClassFlags handle flags =>
    apply (setClassFlags_interns h handle flags.toNat).bind
    exact fun _ _ hb _ _ => Interns.pure hb .none
  | defineMethod handle n r ps flags code =>
    exact defineMethod_interns h handle (hn n rfl) hd flags code

/-! ## Runs -/

theorem interned_ofSteps {steps : List Step} (admitted : ∀ step ∈ steps, step.Admitted D N) :
    Interned D N (ofSteps steps) := by
  have empty : Interned D N {} :=
    ⟨.empty, .empty, .empty, .empty, by simp⟩
  unfold ofSteps
  refine List.foldlRecOn steps _ empty ?_
  intro a ha step hstep
  exact (step_interns ha (admitted step hstep)).1

/-- The assembler before call number `k`. -/
def before (steps : List Step) (k : Nat) : Assembler := ofSteps (steps.take k)

/-- What call number `k` asks for. -/
def askedAt (steps : List Step) (k : Nat) : Option Meaning :=
  steps[k]?.bind fun step => step.asks (before steps k)

/-- What call number `k` returns. -/
def resultAt (steps : List Step) (k : Nat) : Option Nat :=
  steps[k]?.bind fun step => (step.run.run (before steps k)).1

variable {steps : List Step}

theorem before_succ {k : Nat} {step : Step} (h : steps[k]? = some step) :
    before steps (k + 1) = (step.run.run (before steps k)).2 := by
  rw [before, ofSteps, List.take_add_one, h, Option.toList_some, List.foldl_append]
  rfl

theorem interned_before (admitted : ∀ step ∈ steps, step.Admitted D N) (k : Nat) :
    Interned D N (before steps k) :=
  interned_ofSteps fun step hstep => admitted step (List.mem_of_mem_take hstep)

theorem admitted_of_true (step : Step) : step.Admitted (fun _ => True) fun _ => True :=
  ⟨fun _ _ => trivial, fun _ _ => trivial⟩

theorem extends_succ (steps : List Step) (k : Nat) :
    Extends (before steps k) (before steps (k + 1)) := by
  cases hstep : steps[k]? with
  | none =>
    have stays : before steps (k + 1) = before steps k := by
      rw [before, List.take_add_one, hstep, Option.toList_none, List.append_nil, ← before]
    rw [stays]
    exact .refl _
  | some step =>
    rw [before_succ hstep]
    have h : Interned (fun _ => True) (fun _ => True) (before steps k) :=
      interned_before (fun step _ => admitted_of_true step) k
    exact (step_interns h (admitted_of_true step)).2.1

theorem extends_before (steps : List Step) {j k : Nat} (h : j ≤ k) :
    Extends (before steps j) (before steps k) := by
  induction h with
  | refl => exact .refl _
  | step _ ih => exact ih.trans (extends_succ steps _)

theorem answers_resultAt (admitted : ∀ step ∈ steps, step.Admitted D N) (k : Nat) :
    Option.Rel (Answers D N (before steps (k + 1))) (resultAt steps k) (askedAt steps k) := by
  unfold resultAt askedAt
  cases hstep : steps[k]? with
  | none => exact .none
  | some step =>
    rw [before_succ hstep]
    exact (step_interns (interned_before admitted k)
      (admitted step (List.mem_of_getElem? hstep))).2.2

theorem answers_of_askedAt (admitted : ∀ step ∈ steps, step.Admitted D N) {k : Nat}
    {asked : Meaning} (h : askedAt steps k = some asked) :
    ∃ i, resultAt steps k = some i ∧ ∃ held : Meaning, held.Alike asked ∧ held.Admitted D N ∧
      ∀ l > k, (before steps l).Denotes i held := by
  have answers := answers_resultAt admitted k
  rw [h] at answers
  generalize resultAt steps k = result at answers
  cases answers with
  | some answers =>
    obtain ⟨held, alike, hheld, denotes⟩ := answers
    exact ⟨_, rfl, held, alike, hheld, fun l hl => denotes.mono (extends_before steps hl)⟩

theorem admitted_of_askedAt (admitted : ∀ step ∈ steps, step.Admitted D N) {k : Nat}
    {asked : Meaning} (h : askedAt steps k = some asked) : asked.Admitted D N := by
  obtain ⟨step, hstep, hasks⟩ := Option.bind_eq_some_iff.mp h
  obtain ⟨hd, hn⟩ := admitted step (List.mem_of_getElem? hstep)
  cases step with
  | version text => cases hasks
  | string s => cases hasks; trivial
  | type d => cases hasks; trivial
  | proto r ps => cases hasks; exact hd
  | fieldRef c n t => cases hasks; trivial
  | methodRef c n r ps =>
    cases hasks
    exact ⟨hd c List.mem_cons_self, hn n rfl, fun p hp => hd p (List.mem_cons_of_mem _ hp)⟩
  | addClass d s => cases hasks; exact hd d List.mem_cons_self
  | implement handle d => cases hasks
  | setClassFlags handle flags => cases hasks
  | defineMethod handle n r ps flags code =>
    obtain ⟨definer, hdefiner, rfl⟩ := Option.map_eq_some_iff.mp hasks
    exact ⟨(interned_before admitted k).classDescriptor_holds hdefiner, hn n rfl, hd⟩

/-- A handle goes on to stand for the class that was started with it. -/
theorem classDescriptor?_of_addClass {j k handle : Nat} {c : String} {s : Option String}
    (later : j < k) (started : steps[j]? = some (.addClass c s))
    (returned : resultAt steps j = some handle) :
    (before steps k).classDescriptor? handle = some c := by
  have asked : askedAt steps j = some (.declared c s) := by
    rw [askedAt, started]
    rfl
  obtain ⟨i, result, held, alike, -, denotes⟩ :=
    answers_of_askedAt (fun step _ => admitted_of_true step) asked
  obtain rfl := Option.some.inj (returned.symm.trans result)
  cases alike with
  | refl =>
    obtain ⟨cl, hcl, type, -⟩ := denotes k later
    exact classDescriptor?_eq_some_iff.mpr ⟨cl, hcl, type⟩

section

-- descriptors show where they end, and names have no parenthesis
variable (keyed : ∀ step ∈ steps, step.Admitted (IsDelimited ·.toList) ('(' ∉ ·.toList))

include keyed

theorem denotes_of_askedAt {k : Nat} {asked : Meaning} (h : askedAt steps k = some asked) :
    ∃ i, resultAt steps k = some i ∧ ∀ l > k, (before steps l).Denotes i asked := by
  obtain ⟨i, result, held, alike, admitted, denotes⟩ := answers_of_askedAt keyed h
  obtain rfl := alike.eq admitted (admitted_of_askedAt keyed h)
  exact ⟨i, result, denotes⟩

theorem resultAt_eq_iff {k l : Nat} {m m' : Meaning} (hk : askedAt steps k = some m)
    (hl : askedAt steps l = some m') (same : m.table = m'.table) (interned : m.table.IsInterned) :
    resultAt steps k = resultAt steps l ↔ m = m' := by
  obtain ⟨i, hi, denotes⟩ := denotes_of_askedAt keyed hk
  obtain ⟨j, hj, denotes'⟩ := denotes_of_askedAt keyed hl
  -- both indices are read in a state after both calls
  have di := denotes (max k l + 1) (by omega)
  have dj := denotes' (max k l + 1) (by omega)
  rw [hi, hj, Option.some.injEq]
  constructor
  · rintro rfl
    exact di.unique same dj
  · rintro rfl
    exact (interned_before keyed _).index_unique interned di dj

end

/-- **Interning is exact, and indices are stable.** Nothing is in the tables of strings and types
twice, and the maps of all four pools are the inverses of their tables: a string or a descriptor
leads to the index that stands for it, and the key of a prototype or method to the index that
stands for one with that key. What is stored is in bounds. Tables grow at
their ends, so that an index stands for one thing in all the states after the call that
returned it, and a handle stands for the class it was returned for. Where descriptors show
their own ends and method names have no parenthesis, an index stands for just what was asked
for, and calls for prototypes or for methods return the same one if they ask for the same. -/
theorem ofSteps_interning (steps : List Step) :
    ((ofSteps steps).strings.items.Nodup ∧ (ofSteps steps).types.items.Nodup ∧
      (∀ s i, (ofSteps steps).strings.indices.get? s = some i ↔
        (ofSteps steps).Denotes i (.string s)) ∧
      (∀ d i, (ofSteps steps).types.indices.get? d = some i ↔
        (ofSteps steps).Denotes i (.type d)) ∧
      (∀ key i, (ofSteps steps).protos.indices.get? key = some i ↔
        ∃ r ps, (ofSteps steps).Denotes i (.proto r ps) ∧ protoKey r ps = key) ∧
      ∀ key i, (ofSteps steps).methods.indices.get? key = some i ↔
        ∃ c n r ps, (ofSteps steps).Denotes i (.method c n r ps) ∧ methodKey c n r ps = key) ∧
    WellFormed (fun _ => True) (fun _ => True) (ofSteps steps) ∧
    (∀ j k, j ≤ k → Extends (before steps j) (before steps k)) ∧
    (∀ k asked, askedAt steps k = some asked → ∃ i, resultAt steps k = some i ∧
      ∃ held : Meaning, held.Alike asked ∧ ∀ l > k, (before steps l).Denotes i held) ∧
    (∀ j k handle c s, j < k → steps[j]? = some (.addClass c s) →
      resultAt steps j = some handle → (before steps k).classDescriptor? handle = some c) ∧
    ((∀ step ∈ steps, step.Admitted (IsDelimited ·.toList) ('(' ∉ ·.toList)) →
      (∀ k asked, askedAt steps k = some asked →
        ∃ i, resultAt steps k = some i ∧ ∀ l > k, (before steps l).Denotes i asked) ∧
      (∀ k l r r' ps ps', askedAt steps k = some (.proto r ps) →
        askedAt steps l = some (.proto r' ps') →
        (resultAt steps k = resultAt steps l ↔ r = r' ∧ ps = ps')) ∧
      ∀ k l c c' n n' r r' ps ps', askedAt steps k = some (.method c n r ps) →
        askedAt steps l = some (.method c' n' r' ps') →
        (resultAt steps k = resultAt steps l ↔ c = c' ∧ n = n' ∧ r = r' ∧ ps = ps')) := by
  have any : ∀ step ∈ steps, step.Admitted (fun _ => True) fun _ => True :=
    fun step _ => admitted_of_true step
  have interned := interned_ofSteps any
  have wellFormed : WellFormed (fun _ => True) (fun _ => True) (ofSteps steps) :=
    wellFormed_ofSteps (fun _ _ _ _ => trivial) trivial (fun _ _ _ _ => trivial) fun _ _ => trivial
  refine ⟨⟨interned.strings.nodup, interned.types.nodup, fun s i => interned.find?_string_iff,
    fun d i => interned.find?_type_iff, fun key i => interned.find?_proto_iff,
    fun key i => interned.find?_method_iff⟩, wellFormed, fun j k => extends_before steps, ?_,
    fun j k handle c s => classDescriptor?_of_addClass, ?_⟩
  · intro k asked h
    obtain ⟨i, result, held, alike, -, denotes⟩ := answers_of_askedAt any h
    exact ⟨i, result, held, alike, denotes⟩
  · intro keyed
    refine ⟨fun k asked => denotes_of_askedAt keyed, ?_, ?_⟩
    · intro k l r r' ps ps' hk hl
      rw [resultAt_eq_iff keyed hk hl rfl trivial, Meaning.proto.injEq]
    · intro k l c c' n n' r r' ps ps' hk hl
      rw [resultAt_eq_iff keyed hk hl rfl trivial, Meaning.method.injEq]

/-- A method that is referred to and then defined has one index, and one with other parameters
has another. -/
theorem referred_and_defined_method :
    let steps : List Step := [.addClass "La/B;" none, .methodRef "La/B;" "m" "V" ["[I", "La/B;"],
      .defineMethod 0 "m" "V" ["[I", "La/B;"] ⟨1, by decide⟩ none,
      .methodRef "La/B;" "m" "V" ["[I"]]
    (∀ step ∈ steps, step.Admitted (IsDelimited ·.toList) ('(' ∉ ·.toList)) ∧
      resultAt steps 1 = resultAt steps 2 ∧ resultAt steps 1 ≠ resultAt steps 3 := by
  intro steps
  have named : IsDelimited ['L', 'a', '/', 'B', ';'] := .named (by decide : ';' ∉ ['a', '/', 'B'])
  have array : IsDelimited ['[', 'I'] := .array (.letter (by decide))
  have keyed : ∀ step ∈ steps, step.Admitted (IsDelimited ·.toList) ('(' ∉ ·.toList) := by
    simp [steps, Step.Admitted, Step.descriptors, Step.methodName?, named, array]
  obtain ⟨-, -, methods⟩ := (ofSteps_interning steps).2.2.2.2.2 keyed
  refine ⟨keyed, (methods 1 2 _ _ _ _ _ _ _ _ rfl rfl).mpr ⟨rfl, rfl, rfl, rfl⟩, fun same => ?_⟩
  obtain ⟨-, -, -, parameters⟩ := (methods 1 3 _ _ _ _ _ _ _ _ rfl rfl).mp same
  exact absurd parameters (by decide)

end PermissionAudit.Assembler
