import ProtoStub.Proofs.Linking
import Mathlib

/-!
# Full names in place of relative ones

A reference is written relative to its scope, or as a dot and a full name. `fullySpelled` writes
every reference of a set in the second way: a reference that resolves to a message, an enum or a
well-known type becomes a dot and the full name of that type, and one that resolves to a scalar
stays as it is. A full name has a single candidate, and this candidate is the one at which the
search for the relative name ended (`Declared.resolve_rooted`), so the two spellings resolve alike
and the same program is built (`build_fullySpelled`). This holds whatever the search passed over on
its way out: nested types that shadow others, messages called like scalars, types that are only
re-exported.

A sample is built and respelled by `cbv`, which needs the equations of the whole library.
-/

namespace ProtoStub.Schema

open Program (joinScope numberedFiles)

/-! ## Spelling all references anew -/

mutual

/-- A message in the scope `scope`, its types and those of all messages nested in it spelled by
`spell`, which is given the scope of the reference. -/
def Message.spelled (spell : String → String → String) (scope : String) : Message → Message
  | ⟨name, line, fields, messages, enums⟩ =>
    ⟨name, line, fields.map fun f => { f with type := spell (joinScope scope name) f.type },
      Message.allSpelled spell (joinScope scope name) messages, enums⟩

/-- Messages in the scope `scope` with all their types spelled by `spell`. -/
def Message.allSpelled (spell : String → String → String) (scope : String) :
    List Message → List Message
  | [] => []
  | m :: rest => m.spelled spell scope :: Message.allSpelled spell scope rest

end

/-- A service with the types of its procedures spelled by `spell`. -/
def Service.spelled (spell : String → String) (svc : Service) : Service :=
  { svc with
    methods := svc.methods.map fun m =>
      { m with input := spell m.input, output := spell m.output } }

/-- A file with all its types spelled by `spell`. -/
def File.spelled (spell : String → String → String) (f : File) : File :=
  { f with
    messages := Message.allSpelled spell f.package f.messages
    services := f.services.map (Service.spelled (spell f.package)) }

/-- A set with all types spelled by `spell`, which is also given the number of the file. -/
def FileSet.spelled (spell : Nat → String → String → String) (s : FileSet) : FileSet :=
  { s with files := (numberedFiles s).map fun file => file.2.spelled (spell file.1) }

/-- `ref'` is how `spell` writes `ref`. -/
def SpelledBy (spell : String → String → String) (scope ref ref' : String) : Prop :=
  ref' = spell scope ref

mutual

/-- A message spelled anew, before others that are. -/
theorem Message.respells_spelled (spell : String → String → String) (scope : String) :
    ∀ {m : Message} {ms ms' : List Message},
      Message.AllRespell (SpelledBy spell) scope ms ms' →
        Message.AllRespell (SpelledBy spell) scope (m :: ms) (m.spelled spell scope :: ms')
  | ⟨name, line, fields, messages, enums⟩, _, _, hrest => by
    rw [Message.spelled]
    refine .cons rfl ?_ ?_ (Message.respells_allSpelled spell _ messages) hrest
    · exact List.forall₂_map_right_iff.2 (List.forall₂_same.2 fun f _ => ⟨rfl, rfl, rfl, rfl, rfl⟩)
    · exact List.forall₂_same.2 fun e _ => ⟨rfl, rfl⟩

/-- Spelling messages anew respells them. -/
theorem Message.respells_allSpelled (spell : String → String → String) (scope : String) :
    ∀ ms : List Message,
      Message.AllRespell (SpelledBy spell) scope ms (Message.allSpelled spell scope ms)
  | [] => by
    rw [Message.allSpelled]
    exact .nil
  | m :: rest => by
    rw [Message.allSpelled]
    exact Message.respells_spelled spell scope (Message.respells_allSpelled spell scope rest)

end

/-- Spelling a set anew respells it. -/
theorem FileSet.respells_spelled (spell : Nat → String → String → String) (s : FileSet) :
    s.Respells (fun k _ => SpelledBy (spell k)) (s.spelled spell) := by
  refine ⟨rfl, by simp [FileSet.spelled, numberedFiles], fun k f f' hf hf' => ?_⟩
  have hk : f' = f.spelled (spell k) := by
    simpa [FileSet.spelled, Program.getElem?_numberedFiles, hf, eq_comm] using hf'
  subst hk
  refine ⟨rfl, rfl, rfl, rfl, Message.respells_allSpelled _ _ _, ?_, ?_⟩
  · exact List.forall₂_same.2 fun e _ => ⟨rfl, rfl⟩
  · refine List.forall₂_map_right_iff.2 (List.forall₂_same.2 fun svc _ => ⟨rfl, ?_⟩)
    exact List.forall₂_map_right_iff.2 (List.forall₂_same.2 fun m _ => ⟨rfl, rfl, rfl, rfl, rfl⟩)

end ProtoStub.Schema

namespace ProtoStub.Program

open Schema (FileSet)

/-! ## Full spellings -/

/-- The full name of a type; scalars have none. -/
def Declarations.fullName? (d : Declarations) : TypeRef → Option String
  | .message i => d.messages[i]?.map (·.fullName)
  | .enum i => d.enums[i]?.map (·.fullName)
  | .wellKnown w => some (bundledPackage ++ "." ++ w)
  | .scalar _ | .undefined _ => none

/-- The reference `ref` in the scope `scope` of the file `k`, written as a dot and the full name of
the type that it resolves to; a reference to a scalar stays as it is. -/
def Declarations.fullSpelling (d : Declarations) (s : FileSet) (k : Nat) (scope ref : String) :
    String :=
  match Names.resolve ⟨s, d.symbols⟩ (s.visibleFrom k) k scope ref with
  | .ok type => ((d.fullName? type).map ("." ++ ·)).getD ref
  | .error _ => ref

/-- The set with every reference in its full spelling. -/
def fullySpelled (s : FileSet) : FileSet :=
  match declareAll s with
  | .ok d => s.spelled (d.fullSpelling s)
  | .error _ => s

section
variable {s : FileSet} {d : Declarations} {k : Nat} {scope ref : String} {type : TypeRef}

/-- The name under which a type is seen is its full name. -/
theorem VisibleType.fullName? {sees : Nat → Prop} {name : String}
    (h : VisibleType d sees name type) : d.fullName? type = some name := by
  cases h with
  | wellKnown hw =>
    have hname := List.find?_some hw
    rw [beq_iff_eq] at hname
    rw [Declarations.fullName?, hname]
  | message _ hm hname _ => rw [Declarations.fullName?, hm, Option.map_some, hname]
  | enum _ he hname _ => rw [Declarations.fullName?, he, Option.map_some, hname]

/-- A type that a reference resolves to and that is no scalar has a full name, and a dot before this
name resolves to the same type. -/
theorem Declared.resolve_rooted (h : Declared s d) (hscalar : ∀ w, type ≠ .scalar w)
    (hr : Names.resolve ⟨s, d.symbols⟩ (s.visibleFrom k) k scope ref = .ok type) :
    ∃ name, d.fullName? type = some name ∧
      Names.resolve ⟨s, d.symbols⟩ (s.visibleFrom k) k scope ("." ++ name) = .ok type := by
  rw [h.indexed.resolve_eq_ok_iff] at hr
  cases hw : Scalar.ofWord? ref with
  | some w =>
    simp only [hw] at hr
    exact absurd hr (hscalar w)
  | none =>
    simp only [hw] at hr
    obtain ⟨before, name, after, -, ht, -⟩ := hr
    refine ⟨name, ht.fullName?, ?_⟩
    rw [h.indexed.resolve_eq_ok_iff]
    simp only [ofWord?_rooted, candidates_of_rooted rfl]
    exact ⟨[], name, [], rfl, ht, by simp⟩

/-- Which types the names of a set stand for does not depend on how its table was filled. -/
theorem Declared.visibleType_iff {d' : Declarations} (h : Declared s d) (h' : Declared s d')
    {sees : Nat → Prop} {name : String} :
    VisibleType d sees name type ↔ VisibleType d' sees name type := by
  have hmessages : d'.messages = d.messages := h'.messages.trans h.messages.symm
  have henums : d'.enums = d.enums := h'.enums.trans h.enums.symm
  constructor
  · rintro (hw | ⟨hw, hm, hname, hs⟩ | ⟨hw, he, hname, hs⟩)
    · exact .wellKnown hw
    · exact .message hw (hmessages ▸ hm) hname hs
    · exact .enum hw (henums ▸ he) hname hs
  · rintro (hw | ⟨hw, hm, hname, hs⟩ | ⟨hw, he, hname, hs⟩)
    · exact .wellKnown hw
    · exact .message hw (hmessages ▸ hm) hname hs
    · exact .enum hw (henums ▸ he) hname hs

/-- What a reference resolves to does not depend on how the table of the set was filled. -/
theorem Declared.resolve_iff {d' : Declarations} (h : Declared s d) (h' : Declared s d') :
    Names.resolve ⟨s, d.symbols⟩ (s.visibleFrom k) k scope ref = .ok type ↔
      Names.resolve ⟨s, d'.symbols⟩ (s.visibleFrom k) k scope ref = .ok type := by
  rw [h.indexed.resolve_eq_ok_iff, h'.indexed.resolve_eq_ok_iff]
  simp only [FirstVisible, h.visibleType_iff h']

/-- A reference resolves as its full spelling does. -/
theorem Declared.resolveAlike_fullSpelling (h : Declared s d) :
    ResolveAlike s d k scope ref (d.fullSpelling s k scope ref) := by
  intro type
  rw [Declarations.fullSpelling]
  cases hr : Names.resolve ⟨s, d.symbols⟩ (s.visibleFrom k) k scope ref with
  | error e => simp only [hr]
  | ok found =>
    dsimp only
    by_cases hscalar : ∃ w, found = .scalar w
    · obtain ⟨w, rfl⟩ := hscalar
      rw [Declarations.fullName?, Option.map_none, Option.getD_none, hr]
    · obtain ⟨name, hname, hroot⟩ := h.resolve_rooted (not_exists.1 hscalar) hr
      rw [hname, Option.map_some, Option.getD_some, hroot]

end

/-- A set of files and the same set with every reference in its full spelling have the same
program. -/
theorem build_fullySpelled {s : FileSet} {options : BuildOptions} {p : Program}
    (h : build s options = .ok p) : build (fullySpelled s) options = .ok p := by
  obtain ⟨-, d, hd, -⟩ := build_eq_ok_iff.1 h
  rw [fullySpelled, hd]
  refine (build_respells (FileSet.respells_spelled (d.fullSpelling s) s) ?_).2 h
  intro d' hd' k f _ use scope ref ref' _ href type
  have hdecl := declared_of_declareAll hd
  rw [href, ← hdecl.resolve_iff hd', ← hdecl.resolve_iff hd']
  exact hdecl.resolveAlike_fullSpelling type

/-- References that end at a nested type which shadows another, at a message called like a scalar,
at a well-known type and at a type that is only re-exported, beside a scalar. -/
def relativeSample : FileSet where
  files := [
    { path := "/p/a.proto", name := "a.proto", package := "x.y"
      imports := [⟨"b.proto", "/p/b.proto", false⟩]
      messages := [
        { name := "A"
          fields := [{ name := "f", number := 1, type := "B" },
            { name := "g", number := 2, type := "int32" },
            { name := "h", number := 3, type := ".int32" },
            { name := "t", number := 4, type := "google.protobuf.Timestamp" },
            { name := "e", number := 5, repeated := true, type := "z.C.E" }]
          messages := [{ name := "B", fields := [{ name := "b", number := 1, type := "A.B" }] }] },
        { name := "B" }]
      services := [{ name := "S", methods := [{ name := "M", input := "B", output := "y.A" }] }] },
    { path := "/p/b.proto", name := "b.proto", imports := [⟨"c.proto", "/p/c.proto", true⟩]
      messages := [{ name := "int32" }] },
    { path := "/p/c.proto", name := "c.proto", package := "x.z"
      messages := [{ name := "C", enums := [{ name := "E" }] }] }]

/-- Every reference of the sample but the scalar gets its full spelling, and the program stays. -/
theorem relativeSample_fullySpelled :
    (((fullySpelled relativeSample).files.flatMap (·.references)).map fun x => x.2.2) =
        [".x.y.A.B", "int32", ".int32", ".google.protobuf.Timestamp", ".x.z.C.E", ".x.y.A.B",
          ".x.y.B", ".x.y.A"] ∧
      ∃ p, build relativeSample {} = .ok p ∧ build (fullySpelled relativeSample) {} = .ok p := by
  have hok : (build relativeSample {}).toOption.isSome = true := by cbv
  refine ⟨by cbv, ?_⟩
  cases h : build relativeSample {} with
  | error e => rw [h] at hok; cases hok
  | ok p => exact ⟨p, rfl, build_fullySpelled h⟩

end ProtoStub.Program
