import Pkgset.Derivation.Draft
import Pkgset.Proofs.Derivation.Canonical
import Pkgset.Proofs.Derivation.Printing
import Mathlib.Logic.Relation

/-!
# What a fingerprint stands for

Where SHA-256 does not collide, a fingerprint stands for everything that was declared: two
drafts have one fingerprint exactly when they agree on the name, the fingerprints of the
inputs, the phases of each name, the set of outputs, and the platforms. Applied to inputs
again and again, one fingerprint means one closure.
-/

namespace Pkgset

/-! ### The hash -/

namespace Bytes

theorem toList_loop (bytes : ByteArray) (place : Nat) (read : List UInt8) :
    ByteArray.toList.loop bytes place read = read.reverse ++ bytes.data.toList.drop place := by
  fun_induction ByteArray.toList.loop bytes place read with
  | case1 place read inside ih =>
    have inside' : place < bytes.data.toList.length := inside
    rw [ih, List.reverse_cons, List.append_assoc, List.drop_eq_getElem_cons inside']
    simp [ByteArray.get!, inside]
  | case2 place read outside =>
    have outside' : bytes.data.toList.length ≤ place := Nat.le_of_not_lt outside
    rw [List.drop_eq_nil_of_le outside', List.append_nil]

theorem ofText_eq (text : String) : ofText text = text.toUTF8.data.toList := by simp [ofText, ByteArray.toList, toList_loop]

theorem ofText_injective : Function.Injective ofText := by
  intro text other same
  rw [ofText_eq, ofText_eq] at same
  exact String.toByteArray_inj.mp (ByteArray.ext (Array.toList_inj.mp same))

theorem ofText_append (text other : String) : ofText (text ++ other) = ofText text ++ ofText other := by simp [ofText_eq]

theorem hexDigit_inj {m n : Nat} (small : m < 16) (small' : n < 16) (same : hexDigit m = hexDigit n) : m = n := by
  have read := congrArg hexValue? same
  rw [hexValue?_hexDigit small, hexValue?_hexDigit small'] at read
  exact Option.some.inj read

theorem hex_injective : Function.Injective hex := by
  intro bytes others same
  have digits := String.ofList_injective same
  clear same
  induction bytes generalizing others with
  | nil =>
    cases others with
    | nil => rfl
    | cons other rest => simp at digits
  | cons byte bytes ih =>
    cases others with
    | nil => simp at digits
    | cons other others =>
      simp only [List.flatMap_cons, List.cons_append, List.nil_append, List.cons.injEq] at digits
      obtain ⟨high, low, rest⟩ := digits
      have size := byte.toNat_lt
      have size' := other.toNat_lt
      have high := hexDigit_inj (by omega) (by omega) high
      have low := hexDigit_inj (by omega) (by omega) low
      have alike : byte = other := UInt8.toNat_inj.mp (by omega)
      rw [alike, ih rest]

end Bytes

/-- Two messages on which SHA-256 does not collide. -/
def Sha256.Apart (message other : Bytes) : Prop := digest message = digest other → message = other

theorem Fingerprint.text_injective : Function.Injective Fingerprint.text := by
  rintro ⟨text⟩ ⟨other⟩ same
  exact congrArg Fingerprint.mk same

/-! ### Recipes -/

theorem Json.texts_injective : Function.Injective Json.texts := by
  intro items others same
  exact (List.map_inj_right fun _ _ alike => Json.text.inj alike).mp (Json.list.inj same)

theorem Json.textTable_injective : Function.Injective Json.textTable := by
  intro table other same
  refine (List.map_inj_right ?_).mp (Json.record.inj same)
  rintro ⟨name, text⟩ ⟨name', text'⟩ alike
  cases alike
  rfl

/-- A value that is not `null` is told apart from one that is missing. -/
theorem Json.orNull_inj {α : Type} {toJson : α → Json} (injective : Function.Injective toJson)
    (present : ∀ value, toJson value ≠ .null) : Function.Injective fun value : Option α => orNull (value.map toJson) := by
  intro value other same
  cases value with
  | none =>
    cases other with
    | none => rfl
    | some other => exact absurd same.symm (present other)
  | some value =>
    cases other with
    | none => exact absurd same (present value)
    | some other => exact congrArg some (injective same)

theorem StdPhase.name_injective : Function.Injective StdPhase.name := by
  intro phase other same
  cases phase <;> cases other <;> first | rfl | (exfalso; revert same; decide)

theorem PhaseSlot.name_injective : Function.Injective PhaseSlot.name := by
  intro slot other same
  cases slot <;> cases other <;> first | rfl | (exfalso; revert same; decide)

theorem PhaseName.toJson_injective : Function.Injective PhaseName.toJson := by
  rintro ⟨phase, slot⟩ ⟨phase', slot'⟩ same
  simp only [toJson, Json.record.injEq, List.cons.injEq, Prod.mk.injEq, Json.text.injEq, true_and, and_true] at same
  rw [StdPhase.name_injective same.1, PhaseSlot.name_injective same.2]

theorem Command.toJson_injective : Function.Injective Command.toJson := by
  rintro ⟨text, environment, directory⟩ ⟨text', environment', directory'⟩ same
  simp only [toJson, Json.record.injEq, List.cons.injEq, Prod.mk.injEq, Json.text.injEq, true_and, and_true] at same
  obtain ⟨rfl, environments, directories⟩ := same
  rw [Json.orNull_inj Json.textTable_injective (fun _ => nofun) environments,
    Json.orNull_inj (fun _ _ => Json.text.inj) (fun _ => nofun) directories]

theorem Phase.toJson_injective : Function.Injective Phase.toJson := by
  rintro ⟨name, action, retryable⟩ ⟨name', action', retryable'⟩ same
  simp only [toJson, Json.record.injEq, List.cons.injEq, Prod.mk.injEq, Json.flag.injEq, true_and, and_true] at same
  obtain ⟨names, actions, rfl⟩ := same
  rw [PhaseName.toJson_injective names, Command.toJson_injective actions]

theorem Platform.parse_name (platform : Platform) : parse platform.name = .ok platform := by
  obtain ⟨arch, os⟩ := platform
  cases arch <;> cases os <;> rfl

theorem Platform.name_injective : Function.Injective Platform.name := by
  intro platform other same
  have read := congrArg parse same
  rw [parse_name, parse_name] at read
  exact Except.ok.inj read

theorem PlatformTriple.toJson_injective : Function.Injective PlatformTriple.toJson := by
  rintro ⟨build, host, target⟩ ⟨build', host', target'⟩ same
  simp only [toJson, Json.record.injEq, List.cons.injEq, Prod.mk.injEq, Json.text.injEq, true_and, and_true] at same
  rw [Platform.name_injective same.1, Platform.name_injective same.2.1, Platform.name_injective same.2.2]

theorem Derivation.recipeJson_inj {name name' : String} {inputs inputs' : List Fingerprint} {phases phases' : List Phase}
    {outputs outputs' : List String} {platforms platforms' : Option PlatformTriple} :
    recipeJson name inputs phases outputs platforms = recipeJson name' inputs' phases' outputs' platforms' ↔
      name = name' ∧ inputs = inputs' ∧ phases = phases' ∧ outputs = outputs' ∧ platforms = platforms' := by
  constructor
  · intro same
    simp only [recipeJson, Json.record.injEq, List.cons.injEq, Prod.mk.injEq, Json.text.injEq, Json.list.injEq, true_and,
      and_true] at same
    obtain ⟨names, texts, commands, sets, triples⟩ := same
    refine ⟨names, ?_, ?_, Json.texts_injective sets, ?_⟩
    · exact (List.map_inj_right Fingerprint.text_injective).mp (Json.texts_injective texts)
    · exact (List.map_inj_right fun _ _ alike => Phase.toJson_injective alike).mp commands
    · exact Json.orNull_inj PlatformTriple.toJson_injective (fun _ => nofun) triples
  · rintro ⟨rfl, rfl, rfl, rfl, rfl⟩
    rfl

/-! ### What is declared -/

namespace Declaration

/-- The platforms that are declared. -/
def platforms? : Declaration → Option PlatformTriple
  | .platforms triple => some triple
  | _ => none

/-- The inputs that are declared. -/
def derivations : Declaration → List Derivation
  | .input derivation => [derivation]
  | .inputs derivations => derivations
  | _ => []

/-- The phase that is declared. -/
def phase? : Declaration → Option Phase
  | .phase command => some command
  | .run standard action => some (.main standard action)
  | .pre standard action => some (.pre standard action)
  | .post standard action => some (.post standard action)
  | _ => none

/-- The output that is declared. -/
def output? : Declaration → Option String
  | .output name => some name
  | _ => none

end Declaration

namespace Draft
open Declaration

/-- What a draft holds of its declarations: the last platforms, the inputs and phases in
    their order, and the set of outputs. -/
theorem of_eq (name : String) (declarations : List Declaration) :
    of name declarations = ⟨name, (declarations.filterMap platforms?).getLast?, declarations.flatMap derivations,
      declarations.filterMap phase?, ascending (declarations.filterMap output?)⟩ := by
  have grows (draft : Draft) : declarations.foldl declare draft =
      ⟨draft.name, (declarations.filterMap platforms?).getLast?.or draft.platforms,
        draft.inputs ++ declarations.flatMap derivations, draft.phases ++ declarations.filterMap phase?,
        (declarations.filterMap output?).foldl (fun found name => insertAscending name found) draft.outputs⟩ := by
    induction declarations generalizing draft with
    | nil => simp
    | cons declaration rest ih =>
      rw [List.foldl_cons, ih]
      cases declaration <;>
        simp [declare, addPhase, List.filterMap_cons, platforms?, derivations, phase?, output?, List.getLast?_cons]
  simpa [of, new, ascending] using grows (new name)

/-- The outputs that declared names stand for: none stand for the default. -/
def outputNames (declared : List String) : List String :=
  if declared = [] then [Derivation.defaultOutput] else declared

theorem outputsOf_ascending (declared : List String) :
    Derivation.outputsOf (ascending declared) = ascending (outputNames declared) := by
  unfold Derivation.outputsOf outputNames
  by_cases none : declared = []
  · subst none
    rfl
  · have some : ascending declared ≠ [] := by
      obtain ⟨first, rest, rfl⟩ := List.exists_cons_of_ne_nil none
      exact List.ne_nil_of_mem (mem_ascending.mpr List.mem_cons_self)
    rw [if_neg some, if_neg none, ascending_inj]
    exact fun _ => mem_ascending

end Draft

/-- The bytes that a derivation's fingerprint is the hash of. -/
def Derivation.encoding (derivation : Derivation) : Bytes :=
  Bytes.ofText (recipeJson derivation.name (derivation.inputs.map fingerprint) derivation.phases derivation.outputs
    derivation.platforms).toText

namespace Draft
open Declaration

variable {name name' : String} {declarations declarations' : List Declaration}

/-- Two drafts agree on everything that a fingerprint stands for. -/
structure Agree (name name' : String) (declarations declarations' : List Declaration) : Prop where
  name : name = name'
  inputs : (declarations.flatMap derivations).map Derivation.fingerprint =
    (declarations'.flatMap derivations).map Derivation.fingerprint
  phases : ∀ phaseName, (declarations.filterMap phase?).filter (·.name = phaseName) =
    (declarations'.filterMap phase?).filter (·.name = phaseName)
  outputs : ∀ output, output ∈ outputNames (declarations.filterMap output?) ↔
    output ∈ outputNames (declarations'.filterMap output?)
  platforms : (declarations.filterMap platforms?).getLast? = (declarations'.filterMap platforms?).getLast?

/-- What a fingerprint is the hash of, and what is declared, determine each other. -/
theorem encoding_eq_iff :
    (of name declarations).build.encoding = (of name' declarations').build.encoding ↔
      Agree name name' declarations declarations' := by
  have recipes : (of name declarations).build.encoding = (of name' declarations').build.encoding ↔
      Derivation.recipeJson name ((declarations.flatMap derivations).map Derivation.fingerprint)
          (Phase.sort (declarations.filterMap phase?)) (Derivation.outputsOf (ascending (declarations.filterMap output?)))
          (declarations.filterMap platforms?).getLast? =
        Derivation.recipeJson name' ((declarations'.flatMap derivations).map Derivation.fingerprint)
          (Phase.sort (declarations'.filterMap phase?)) (Derivation.outputsOf (ascending (declarations'.filterMap output?)))
          (declarations'.filterMap platforms?).getLast? := by
    rw [of_eq, of_eq]
    exact ⟨fun same => Json.toText_injective (Bytes.ofText_injective same), fun same => by
      simp only [Derivation.encoding, build, Derivation.build, Derivation.name, Derivation.inputs, Derivation.phases,
        Derivation.outputs, Derivation.platforms, same]⟩
  rw [recipes, Derivation.recipeJson_inj, Phase.sort_inj, outputsOf_ascending, outputsOf_ascending, ascending_inj]
  constructor
  · rintro ⟨names, inputs, phases, outputs, platforms⟩
    exact ⟨names, inputs, phases, outputs, platforms⟩
  · rintro ⟨names, inputs, phases, outputs, platforms⟩
    exact ⟨names, inputs, phases, outputs, platforms⟩

/-- The fingerprint of a draft is the hash of its encoding. -/
theorem fingerprint_build (draft : Draft) :
    draft.build.fingerprint = ⟨Bytes.hex (Sha256.digest draft.build.encoding)⟩ := rfl

theorem fingerprint_eq_iff_encoding {draft other : Draft} (apart : Sha256.Apart draft.build.encoding other.build.encoding) :
    draft.build.fingerprint = other.build.fingerprint ↔ draft.build.encoding = other.build.encoding := by
  rw [fingerprint_build, fingerprint_build]
  constructor
  · intro same
    exact apart (Bytes.hex_injective (congrArg Fingerprint.text same))
  · intro same
    rw [same]

theorem inputs_build : (of name declarations).build.inputs = declarations.flatMap derivations := by
  rw [of_eq]
  rfl

/-- Drafts that agree, and have the same inputs, are built to the same derivation. -/
theorem Agree.build_eq (agree : Agree name name' declarations declarations')
    (inputs : declarations.flatMap derivations = declarations'.flatMap derivations) :
    (of name declarations).build = (of name' declarations').build := by
  rw [of_eq, of_eq]
  have phases := Phase.sort_inj.mpr agree.phases
  have outputs := ascending_inj.mpr agree.outputs
  simp only [build, Derivation.build, outputsOf_ascending, agree.name, inputs, phases, outputs, agree.platforms]

end Draft

/-! ### Closures -/

/-- Lists are equal when a function that tells their members apart gives the same for them. -/
private theorem eq_of_map_eq {α β : Type} {f : α → β} {items others : List α}
    (injective : ∀ item ∈ items, ∀ other ∈ others, f item = f other → item = other)
    (same : items.map f = others.map f) : items = others := by
  induction items generalizing others with
  | nil => exact (List.map_eq_nil_iff.mp same.symm).symm
  | cons item items ih =>
    cases others with
    | nil => cases same
    | cons other others =>
      obtain ⟨head, tail⟩ := List.cons.inj same
      rw [injective item (by simp) other (by simp) head,
        ih (fun item member other member' => injective item (by simp [member]) other (by simp [member'])) tail]

namespace Derivation
open Declaration

/-- A derivation that was put together by declarations, as were its inputs, and theirs. -/
inductive Built : Derivation → Prop where
  | build (name : String) (declarations : List Declaration)
      (inputs : ∀ input ∈ declarations.flatMap derivations, Built input) : Built (Draft.of name declarations).build

/-- A derivation, its inputs, and theirs. -/
def Within (derivation : Derivation) : Derivation → Prop :=
  Relation.ReflTransGen (fun user input => input ∈ user.inputs) derivation

/-- SHA-256 does not collide on the closures of two derivations. -/
def Apart (derivation other : Derivation) : Prop :=
  ∀ one another, derivation.Within one → other.Within another → Sha256.Apart one.encoding another.encoding

/-- One fingerprint means one derivation, with all that it is made from. -/
theorem Built.eq_of_fingerprint {derivation other : Derivation} (built : derivation.Built) (built' : other.Built)
    (apart : derivation.Apart other) (same : derivation.fingerprint = other.fingerprint) : derivation = other := by
  induction built generalizing other with
  | build name declarations inputs ih =>
    cases built' with
    | build name' declarations' inputs' =>
      have alone := apart _ _ Relation.ReflTransGen.refl Relation.ReflTransGen.refl
      have agree := Draft.encoding_eq_iff.mp ((Draft.fingerprint_eq_iff_encoding alone).mp same)
      refine agree.build_eq (eq_of_map_eq (fun input member input' member' alike => ?_) agree.inputs)
      refine ih input member (inputs' input' member') (fun one another within within' => ?_) alike
      exact apart one another (within.head (by rwa [Draft.inputs_build])) (within'.head (by rwa [Draft.inputs_build]))

end Derivation

namespace Draft
open Declaration

variable {name name' : String} {declarations declarations' : List Declaration}

/-- Where SHA-256 does not collide on what is hashed, two drafts have one fingerprint
    exactly when they agree on the name, the fingerprints of the inputs in their order, the
    phases of each name in their order, the set of outputs, where none stand for the
    default one, and the last platforms. If it collides nowhere on the closures of inputs
    that were put together in the same way, one fingerprint means the same inputs, with all
    that they are made from. -/
theorem fingerprint_eq_iff
    (apart : Sha256.Apart (of name declarations).build.encoding (of name' declarations').build.encoding) :
    ((of name declarations).build.fingerprint = (of name' declarations').build.fingerprint ↔
      name = name' ∧
      (declarations.flatMap derivations).map Derivation.fingerprint =
        (declarations'.flatMap derivations).map Derivation.fingerprint ∧
      (∀ phaseName, (declarations.filterMap phase?).filter (·.name = phaseName) =
        (declarations'.filterMap phase?).filter (·.name = phaseName)) ∧
      (∀ output, output ∈ outputNames (declarations.filterMap output?) ↔
        output ∈ outputNames (declarations'.filterMap output?)) ∧
      (declarations.filterMap platforms?).getLast? = (declarations'.filterMap platforms?).getLast?) ∧
    ((∀ input ∈ declarations.flatMap derivations, input.Built) →
      (∀ input ∈ declarations'.flatMap derivations, input.Built) →
      (∀ input ∈ declarations.flatMap derivations, ∀ input' ∈ declarations'.flatMap derivations, input.Apart input') →
      (of name declarations).build.fingerprint = (of name' declarations').build.fingerprint →
        declarations.flatMap derivations = declarations'.flatMap derivations) := by
  have hashed := (fingerprint_eq_iff_encoding apart).trans encoding_eq_iff
  refine ⟨hashed.trans ⟨?_, ?_⟩, fun built built' distinct same => ?_⟩
  · rintro ⟨names, inputs, phases, outputs, platforms⟩
    exact ⟨names, inputs, phases, outputs, platforms⟩
  · rintro ⟨names, inputs, phases, outputs, platforms⟩
    exact ⟨names, inputs, phases, outputs, platforms⟩
  · refine eq_of_map_eq (fun input member input' member' alike => ?_) (hashed.mp same).inputs
    exact (built input member).eq_of_fingerprint (built' input' member') (distinct input member input' member') alike

/-! ### Two drafts of the same -/

/-- An input. -/
def sampleTool : Derivation := (of "tool" [.run .build (.plain "make")]).build

/-- A draft that declares its outputs last. -/
def sample : List Declaration :=
  [.input sampleTool, .run .build (.plain "make"), .pre .configure (.plain "autoreconf"),
    .run .build (.plain "make doc"), .output "out", .output "doc"]

/-- The same with the hook declared earlier, and outputs first and once more. -/
def reordered : List Declaration :=
  [.output "doc", .pre .configure (.plain "autoreconf"), .run .build (.plain "make"),
    .run .build (.plain "make doc"), .inputs [sampleTool], .output "out", .output "doc"]

theorem agree_sample : Agree "app" "app" sample reordered := by
  refine ⟨rfl, rfl, ?_, ?_, rfl⟩
  · rintro ⟨phase, slot⟩
    cases phase <;> cases slot <;> rfl
  · intro output
    have declared : outputNames (sample.filterMap output?) = ["out", "doc"] := rfl
    have declared' : outputNames (reordered.filterMap output?) = ["doc", "out", "doc"] := rfl
    simp [declared, declared', or_comm]

/-- The input needs nothing else. -/
theorem eq_of_within_sampleTool {derivation : Derivation} (within : sampleTool.Within derivation) :
    derivation = sampleTool := by
  have leaf : sampleTool.inputs = [] := inputs_build
  rcases within.cases_head with same | ⟨input, uses, _⟩
  · exact same.symm
  · simp [leaf] at uses

/-- Both drafts have one fingerprint, which means the same input. -/
theorem fingerprint_eq_iff_sample :
    (of "app" sample).build.fingerprint = (of "app" reordered).build.fingerprint ∧
      sample.flatMap derivations = reordered.flatMap derivations := by
  have encodings : (of "app" sample).build.encoding = (of "app" reordered).build.encoding :=
    encoding_eq_iff.mpr agree_sample
  have apart : Sha256.Apart (of "app" sample).build.encoding (of "app" reordered).build.encoding := fun _ => encodings
  obtain ⟨identity, closed⟩ := fingerprint_eq_iff apart
  have inputs : sample.flatMap derivations = [sampleTool] := rfl
  have inputs' : reordered.flatMap derivations = [sampleTool] := rfl
  have built : sampleTool.Built := .build "tool" _ fun input member => by cases member
  have distinct : sampleTool.Apart sampleTool := by
    intro one another within within'
    rw [eq_of_within_sampleTool within, eq_of_within_sampleTool within']
    exact fun _ => rfl
  have same := identity.mpr ⟨rfl, rfl, agree_sample.phases, agree_sample.outputs, rfl⟩
  refine ⟨same, closed ?_ ?_ ?_ same⟩
  · simpa [inputs] using built
  · simpa [inputs'] using built
  · simpa [inputs, inputs'] using distinct

end Draft
end Pkgset
